import MessageFormat.Text.Quoted

/-!
# Faults in a source text

The ways in which characters fail to make a token, and their wording.
-/

namespace MessageFormat

/-- Why the characters at some position make no token. -/
inductive Fault where
  /-- A closing brace stands bare in a pattern. -/
  | bareClose
  /-- A character may not stand in a pattern. -/
  | illegalInPattern (c : Char)
  /-- A character begins nothing outside of a quoted pattern. -/
  | illegalInHeader (c : Char)
  /-- A character begins nothing in an expression. -/
  | illegalInExpression (c : Char)
  /-- An expression is opened inside another. -/
  | nestedOpen
  /-- A character may not stand in a quoted literal. -/
  | illegalInQuotes (c : Char)
  /-- A quoted literal is not closed. -/
  | openQuotes
  /-- A character may not stand behind a backslash. -/
  | illegalEscape (c : Char)
  /-- The text ends behind a backslash. -/
  | openEscape
  /-- There is no name behind a point. -/
  | missingKeyword
  /-- There is no name behind a dollar sign. -/
  | missingVariable
  /-- There is no name behind another sigil. -/
  | missingName
  /-- A number has no integer part. -/
  | missingInteger
  /-- A number has a point and no fraction. -/
  | missingFraction
  /-- A number has an exponent sign and no exponent. -/
  | missingExponent
  /-- A number runs on into a name. -/
  | numberRunsOn (c : Char)
deriving DecidableEq, Repr

namespace Fault

/-- The wording of a fault. -/
def message : Fault → String
  | bareClose => "unescaped '\x7d' in pattern; write '\\\x7d'"
  | illegalInPattern c => "invalid character " ++ quoteChar c ++ " in pattern"
  | illegalInHeader c => "unexpected character " ++ quoteChar c ++ " outside of a quoted pattern"
  | illegalInExpression c => "unexpected character " ++ quoteChar c ++ " in expression"
  | nestedOpen => "unexpected '\x7b' inside an expression"
  | illegalInQuotes c => "invalid character " ++ quoteChar c ++ " in quoted literal"
  | openQuotes => "unterminated quoted literal"
  | illegalEscape c => "invalid escape sequence '\\" ++ String.singleton c ++ "'"
  | openEscape => "unexpected end of input after '\\'"
  | missingKeyword => "expected keyword name after '.'"
  | missingVariable => "expected variable name after '$'"
  | missingName => "expected a name"
  | missingInteger => "invalid number literal: expected a digit"
  | missingFraction => "invalid number literal: expected a digit after '.'"
  | missingExponent => "invalid number literal: expected exponent digits"
  | numberRunsOn c => "invalid number literal: unexpected " ++ quoteChar c

end Fault

end MessageFormat
