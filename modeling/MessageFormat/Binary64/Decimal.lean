import MessageFormat.Text.Character
import MessageFormat.Binary64.Rounding

/-!
# Decimal fractions

The numbers `digits * 10 ^ exponent`, their positional text, and the `binary64` magnitude nearest to
one.  Text is positional: zeros are written out on either side of the point as far as it takes.  Only
where a number is shown in an error message, a power of ten may stand for them.
-/

namespace MessageFormat

/-- The decimal fraction `digits * 10 ^ exponent`. -/
structure Decimal where
  /-- The digits, as a natural number. -/
  digits : Nat
  /-- The power of ten that the last digit counts. -/
  exponent : Int
deriving DecidableEq

namespace Decimal

/-- The digits of a natural number. -/
def digitsOf (n : Nat) : List Char := Nat.toDigits 10 n

/-- The natural number of some digits. -/
def digitsValue (digits : List Char) : Nat :=
  digits.foldl (fun n c => 10 * n + (c.toNat - '0'.toNat)) 0

/-- Writes digits with a point before the last `places` of them, and at least one digit before the
point. -/
def withPoint (digits : List Char) (places : Nat) : List Char :=
  let padded := List.replicate (places + 1 - digits.length) '0' ++ digits
  padded.take (padded.length - places) ++ '.' :: padded.drop (padded.length - places)

/-- The positional text: the digits and as many zeros as the exponent says, or the digits with as
many places behind the point. -/
def text (x : Decimal) : List Char :=
  match x.exponent with
  | .ofNat zeros => digitsOf x.digits ++ List.replicate zeros '0'
  | .negSucc n => withPoint (digitsOf x.digits) (n + 1)

/-- The power of ten that the first digit counts. -/
def order (x : Decimal) : Int := x.exponent + (digitsOf x.digits).length - 1

/-- The text with one digit before the point and a power of ten. -/
def scientificText (x : Decimal) : List Char :=
  let digits := digitsOf x.digits
  let fraction := if digits.length = 1 then [] else '.' :: digits.drop 1
  digits.take 1 ++ fraction ++ 'e' :: x.order.repr.toList

/-- The text that cannot be taken for that of a whole number: positional, with at least one digit
behind the point, or with a power of ten if that is less than -4 or greater than 15. -/
def shownText (x : Decimal) : List Char :=
  if x.digits ≠ 0 ∧ (x.order < -4 ∨ 15 < x.order) then x.scientificText
  else
    match x.exponent with
    | .ofNat _ => x.text ++ ['.', '0']
    | .negSucc _ => x.text

/-- The number of the `binary64` magnitude nearest to the fraction. -/
def nearestIndex (x : Decimal) : Nat :=
  match x.exponent with
  | .ofNat zeros => Binary64.nearestIndex (x.digits * powerOfTen zeros) 1
  | .negSucc n => Binary64.nearestIndex x.digits (powerOfTen (n + 1))

end Decimal

end MessageFormat
