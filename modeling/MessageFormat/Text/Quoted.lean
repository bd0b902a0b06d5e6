import MessageFormat.Text.Unprintable

/-!
# Text quoted in an error message

An error shows the character or the text that it is about between quotes, with every character
that the reader could not see written as an escape.
-/

namespace MessageFormat

/-- The lowercase hexadecimal digits of a code point, without leading zeros. -/
def hexDigits (n : Nat) : String := String.ofList (Nat.toDigits 16 n)

/-- One character between quotes of the kind `quote`: the quote itself and the backslash are
escaped, the common controls by letter and all else that is unprintable by code point. -/
def quotedChar (quote c : Char) : String :=
  if c == '\x00' then "\\0"
  else if c == '\t' then "\\t"
  else if c == '\r' then "\\r"
  else if c == '\n' then "\\n"
  else if c == '\\' || c == quote then String.ofList ['\\', c]
  else if isUnprintable c then "\\u\x7b" ++ hexDigits c.toNat ++ "\x7d"
  else String.singleton c

/-- A character in single quotes. -/
def quoteChar (c : Char) : String := "'" ++ quotedChar '\x27' c ++ "'"

/-- A text in double quotes. -/
def quoteText (text : String) : String :=
  "\"" ++ String.join (text.toList.map (quotedChar '\"')) ++ "\""

end MessageFormat
