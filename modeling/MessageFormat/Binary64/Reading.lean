import MessageFormat.Binary64.Decimal

/-!
# Reading binary64 numbers

The number that a text means: an optional sign, then digits with an optional point among or beside
them and an optional exponent, or the name of an infinity or of `nan` in either case of letters.
The result is the nearest number.
-/

namespace MessageFormat

namespace Binary64

/-- The natural number of one or more digits. -/
def natural? (text : List Char) : Option Nat :=
  if text.isEmpty || !text.all isDigit then none else some (Decimal.digitsValue text)

/-- The exponent that a text ends in, 0 if there is none. -/
def exponent? : List Char → Option Int
  | [] => some 0
  | c :: rest =>
    if c == 'e' || c == 'E' then
      match rest with
      | '-' :: digits => (natural? digits).map fun n => -(n : Int)
      | '+' :: digits => (natural? digits).map Int.ofNat
      | digits => (natural? digits).map Int.ofNat
    else none

/-- The number of a text that begins with a digit or a point. -/
def decimal? (negative : Bool) (text : List Char) : Option Binary64 :=
  let whole := text.takeWhile isDigit
  let rest := text.dropWhile isDigit
  let (fraction, rest) := match rest with
    | '.' :: rest => (rest.takeWhile isDigit, rest.dropWhile isDigit)
    | rest => ([], rest)
  if whole.isEmpty && fraction.isEmpty then none
  else (exponent? rest).map fun exponent =>
    ofScientific negative (Decimal.digitsValue (whole ++ fraction)) (exponent - fraction.length)

/-- The number of a text behind its sign. -/
def unsigned? (negative : Bool) (text : List Char) : Option Binary64 :=
  let lower := text.map Char.toLower
  if lower == ['i', 'n', 'f'] || lower == ['i', 'n', 'f', 'i', 'n', 'i', 't', 'y'] then
    some (.infinity negative)
  else if lower == ['n', 'a', 'n'] then some .nan
  else decimal? negative text

/-- The number that a text means, if it is well formed. -/
def ofText? : List Char → Option Binary64
  | '-' :: text => unsigned? true text
  | '+' :: text => unsigned? false text
  | text => unsigned? false text

end Binary64

end MessageFormat
