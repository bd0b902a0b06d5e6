import MessageFormat.Text.Character
import MessageFormat.Source

/-!
# Tokens

The words of a message: a kind, the value that the kind gives to its spelling, and the span of the
source that it covers.
-/

namespace MessageFormat

/-- The kind of a token. -/
inductive TokenKind where
  /-- Text of a pattern. -/
  | text
  /-- An opening brace. -/
  | expressionOpen
  /-- A closing brace. -/
  | expressionClose
  /-- Two opening braces, which begin a quoted pattern. -/
  | patternOpen
  /-- Two closing braces, which end a quoted pattern. -/
  | patternClose
  /-- A name behind a dollar sign. -/
  | variableName
  /-- An identifier behind a colon. -/
  | functionName
  /-- An identifier behind a number sign. -/
  | markupOpen
  /-- An identifier behind a slash. -/
  | markupClose
  /-- A slash before the closing brace of standalone markup. -/
  | selfClose
  /-- A text between bars. -/
  | quotedLiteral
  /-- A bare name that stands for itself. -/
  | nameLiteral
  /-- A number. -/
  | numberLiteral
  /-- An identifier that names an option. -/
  | optionName
  /-- An identifier behind an at sign. -/
  | attributeName
  /-- An equals sign. -/
  | equals
  /-- The keyword of an input declaration. -/
  | inputKeyword
  /-- The keyword of a local declaration. -/
  | localKeyword
  /-- The keyword of a matcher. -/
  | matchKeyword
  /-- Any other keyword. -/
  | reservedKeyword
  /-- An asterisk that stands for a key. -/
  | catchAll
  /-- A run of blanks. -/
  | blank
  /-- A sigil of a reserved directive. -/
  | reservedSigil
  /-- Text of a reserved body. -/
  | reservedText
  /-- A sigil of a private-use directive. -/
  | privateSigil
  /-- The end of the input. -/
  | endOfInput
  /-- A fault, whose description is the value of the token. -/
  | fault
deriving DecidableEq, Repr

namespace TokenKind

/-- Whether the kind can stand as a literal. -/
def isLiteral : TokenKind → Bool
  | quotedLiteral | nameLiteral | numberLiteral => true
  | _ => false

/-- Whether the kind begins a statement. -/
def isKeyword : TokenKind → Bool
  | inputKeyword | localKeyword | matchKeyword | reservedKeyword => true
  | _ => false

/-- Whether the kind begins a directive. -/
def beginsDirective : TokenKind → Bool
  | functionName | reservedSigil | privateSigil => true
  | _ => false

/-- Whether the kind can stand as a key of a variant. -/
def isKey : TokenKind → Bool
  | catchAll => true
  | kind => kind.isLiteral

/-- The name of the kind in an error message. -/
def name : TokenKind → String
  | text => "text"
  | expressionOpen => "'\x7b'"
  | expressionClose => "'\x7d'"
  | patternOpen => "'\x7b\x7b'"
  | patternClose => "'\x7d\x7d'"
  | variableName => "variable"
  | functionName => "function"
  | markupOpen => "markup open"
  | markupClose => "markup close"
  | selfClose => "'/'"
  | quotedLiteral => "quoted literal"
  | nameLiteral => "unquoted literal"
  | numberLiteral => "number literal"
  | optionName => "option"
  | attributeName => "attribute"
  | equals => "'='"
  | inputKeyword => "'.input'"
  | localKeyword => "'.local'"
  | matchKeyword => "'.match'"
  | reservedKeyword => "reserved keyword"
  | catchAll => "'*'"
  | blank => "whitespace"
  | reservedSigil => "reserved annotation"
  | reservedText => "reserved body"
  | privateSigil => "private-use annotation"
  | endOfInput => "end of input"
  | fault => "error"

/-- Whether the name of the kind spells the token out, so that its value would add nothing. -/
def isSpelledOut (kind : TokenKind) : Bool := kind.name.toList.head? == some '\x27'

end TokenKind

/-- A token of a message. -/
structure Token where
  /-- What the token is. -/
  kind : TokenKind
  /-- What the token says: decoded text, a name without its sigil, or the spelling itself. -/
  value : String
  /-- The part of the source that it covers. -/
  span : Span
deriving DecidableEq, Repr

namespace Token

/-- Whether the token can stand as a literal. -/
def isLiteral (token : Token) : Bool := token.kind.isLiteral

/-- Whether the token is a run of blanks. -/
def isBlank (token : Token) : Bool := token.kind == .blank

/-- Whether the token separates: a run of blanks with a space in it.  Bidi marks alone may stand
where a separator is optional and do not replace one. -/
def isSeparator (token : Token) : Bool :=
  token.isBlank && token.value.toList.any isSpace

end Token

end MessageFormat
