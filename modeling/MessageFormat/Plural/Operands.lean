import MessageFormat.Binary64.Reading

/-!
# Plural operands

What the plural rules of languages ask about a number, read from its text.
-/

namespace MessageFormat

/-- What plural rules ask about the digits of a number. -/
structure PluralOperands where
  /-- The number. -/
  n : Binary64
  /-- The digits before the point, as a number. -/
  i : Nat
  /-- How many digits stand behind the point. -/
  v : Nat
  /-- The digits behind the point, as a number. -/
  f : Nat
  /-- The digits behind the point without the zeros at their end, as a number. -/
  t : Nat

namespace PluralOperands

/-- What the numbers among the operands are below: they fit into 64 bits. -/
def limit : Nat := UInt64.size

/-- The number of one or more digits, if it is below the limit. -/
def number? (digits : List Char) : Option Nat :=
  (Binary64.natural? digits).filter (· < limit)

/-- The operands of a number without a sign.  A number that is written without a point and is not
below the limit counts as the last number that is; with a point, such digits are refused. -/
def ofText? (text : List Char) : Option PluralOperands := do
  let n ← Binary64.ofText? text
  match text.dropWhile (· != '.') with
  | [] =>
    let i ← Binary64.natural? text
    return ⟨n, min i (limit - 1), 0, 0, 0⟩
  | _ :: digits =>
    let i ← number? (text.takeWhile (· != '.'))
    let f ← number? digits
    let significant := (digits.reverse.dropWhile (· == '0')).reverse
    return ⟨n, i, digits.length, f, (number? significant).getD 0⟩

/-- Whether the number is one of some natural numbers. -/
def isAmong (o : PluralOperands) (numbers : List Nat) : Bool :=
  numbers.any fun (k : Nat) => o.n.toInt? == some (k : Int)

end PluralOperands

end MessageFormat
