import MessageFormat.Text.Character

/-!
# Names and number literals

The two spellings that a literal may have without quotes.  A printer asks these predicates whether
a spelling may stand bare.
-/

namespace MessageFormat

/-- A name: one character that may begin a name, then any number that may continue one. -/
def isName (text : String) : Bool :=
  match text.toList with
  | [] => false
  | c :: rest => isNameStart c && rest.all isNameChar

namespace NumberLiteral

/-- The text without a leading minus sign. -/
def dropSign : List Char → List Char
  | '-' :: rest => rest
  | text => text

/-- The text without one or more digits, if it begins with a digit. -/
def dropDigits? : List Char → Option (List Char)
  | c :: rest => if isDigit c then some (rest.dropWhile isDigit) else none
  | [] => none

/-- The text without an integer part, which begins with a zero only if it is one. -/
def dropInteger? : List Char → Option (List Char)
  | '0' :: rest => some rest
  | text => dropDigits? text

/-- The text without a fraction part, if it has one. -/
def dropFraction? : List Char → Option (List Char)
  | '.' :: rest => dropDigits? rest
  | text => some text

/-- The text without an exponent part, if it has one. -/
def dropExponent? : List Char → Option (List Char)
  | c :: rest =>
    if c == 'e' || c == 'E' then
      match rest with
      | sign :: digits =>
        if sign == '+' || sign == '-' then dropDigits? digits else dropDigits? rest
      | [] => none
    else some (c :: rest)
  | [] => some []

end NumberLiteral

open NumberLiteral in
/-- A number literal: an optional minus sign, an integer part without leading zeros, and an optional
fraction and exponent, each with at least one digit. -/
def isNumberLiteral (text : String) : Bool :=
  (dropInteger? (dropSign text.toList) >>= dropFraction? >>= dropExponent?) == some []

end MessageFormat
