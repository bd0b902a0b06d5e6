import MessageFormat.Text.Character

/-!
# Backslash escapes

A character that would end the text around it, or begin something else there, is written behind a
backslash.  Which characters these are depends on what the text stands in: the text of a pattern, a
quoted literal or a reserved body.
-/

namespace MessageFormat

/-- The text with a backslash before each character that `special` accepts. -/
def escape (special : Char → Bool) (text : String) : String :=
  String.ofList (text.toList.flatMap fun c => if special c then ['\\', c] else [c])

/-- Escapes the text of a pattern: the backslash and both braces. -/
def escapeText (text : String) : String :=
  escape (fun c => c == '\\' || c == '{' || c == '}') text

/-- Escapes the inside of a quoted literal: the backslash and the bar. -/
def escapeQuoted (text : String) : String :=
  escape (fun c => c == '\\' || c == '|') text

/-- Escapes the text of a reserved body: every character that can be escaped. -/
def escapeReserved (text : String) : String := escape isEscapable text

end MessageFormat
