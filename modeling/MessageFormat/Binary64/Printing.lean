import MessageFormat.Binary64.Decimal

/-!
# Decimal text of binary64 numbers

A number has two texts: the *shortest*, which has as few digits as read back to it, and the *fixed*,
which has a given count of places behind the point.  The first is also *shown* so that it cannot be
taken for the text of a whole number.

The points of the grid of multiples of 10^e that lie next to a value are the only ones of that grid
that can read back to it, for a point further off lies beyond a point that does not.  So the
shortest text is found by going from coarse grids to fine ones and looking at two points of each.
-/

namespace MessageFormat

namespace Binary64

/-- The point of the grid of multiples of `10 ^ exponent` that reads back to magnitude `k`: of two,
the nearer, and of two as near, the greater. -/
def onGrid? (k : Nat) (exponent : Int) : Option Decimal :=
  let (num, den) := match exponent with
    | .ofNat e => (units k, unitsPerOne * powerOfTen e)
    | .negSucc e => (units k * powerOfTen (e + 1), unitsPerOne)
  let below : Decimal := ⟨num / den, exponent⟩
  let above : Decimal := ⟨num / den + 1, exponent⟩
  match below.nearestIndex == k, above.nearestIndex == k with
  | true, true => some (if 2 * (num % den) < den then below else above)
  | true, false => some below
  | false, true => some above
  | false, false => none

/-- The decimal fraction with the fewest digits that reads back to magnitude `k`: a point of the
coarsest grid that has one.  The grids range from the order of the value down to 10^-345, below
which no magnitude needs to go. -/
def shortest (k : Nat) : Decimal :=
  if k = 0 then ⟨0, 0⟩
  else
    let order := (Decimal.digitsOf (units k / unitsPerOne)).length
    ((List.range (order + 346)).findSome? fun (i : Nat) =>
      onGrid? k ((order : Int) - i)).getD ⟨0, 0⟩

/-- The value of magnitude `k` with `places` digits behind the point, rounded to the nearest and a
tie to the even digit. -/
def fixed (k places : Nat) : Decimal :=
  ⟨roundDiv .toEven (units k * powerOfTen places) unitsPerOne, -places⟩

/-- The text of a number whose magnitude is written by `write`. -/
def textWith (write : Nat → List Char) : Binary64 → String
  | .nan => "NaN"
  | .infinity negative => if negative then "-inf" else "inf"
  | .finite negative index =>
    let magnitude := write index
    String.ofList (if negative then '-' :: magnitude else magnitude)

/-- The shortest text that reads back to the number. -/
def text (x : Binary64) : String := textWith (fun k => (shortest k).text) x

/-- The shortest text that reads back to the number and cannot be taken for that of a whole
number. -/
def shownText (x : Binary64) : String := textWith (fun k => (shortest k).shownText) x

/-- The text with `places` digits behind the point. -/
def fixedText (x : Binary64) (places : Nat) : String := textWith (fun k => (fixed k places).text) x

end Binary64

end MessageFormat
