import MessageFormat.Binary64.Basic

/-!
# Rounding

Rounding a quotient of natural numbers to a natural number, and an exact value to the nearest
`binary64` number.

* `le_two_mul_roundDiv`, `two_mul_roundDiv_le` : the rounded quotient is within one half;
* `Binary64.nearestIndex` : on the numbers between 2^(52 + s) and 2^(53 + s) units the magnitudes
  are 2^s units apart, so the nearest one is a quotient by 2^s, rounded.
-/

namespace MessageFormat

/-- What becomes of a quotient that is halfway between two natural numbers. -/
inductive Tie where
  /-- It goes to the even one. -/
  | toEven
  /-- It goes to the greater one. -/
  | up
deriving DecidableEq

/-- The natural number nearest to the quotient. -/
def roundDiv (tie : Tie) (num den : Nat) : Nat :=
  let floor := num / den
  match compare (2 * (num % den)) den with
  | .lt => floor
  | .gt => floor + 1
  | .eq => match tie with
    | .toEven => floor + floor % 2
    | .up => floor + 1

theorem div_le_roundDiv (tie : Tie) (num den : Nat) : num / den ≤ roundDiv tie num den := by
  cases tie <;> simp only [roundDiv] <;> split <;> omega

theorem roundDiv_le_div_add_one (tie : Tie) (num den : Nat) :
    roundDiv tie num den ≤ num / den + 1 := by
  cases tie <;> simp only [roundDiv] <;> split <;> omega

theorem le_two_mul_roundDiv (tie : Tie) {num den : Nat} (h : 0 < den) :
    2 * num ≤ 2 * den * roundDiv tie num den + den := by
  have hdiv := Nat.div_add_mod num den
  have hmod := Nat.mod_lt num h
  rcases Nat.lt_or_ge den (2 * (num % den)) with hlt | hge
  · have hround : roundDiv tie num den = num / den + 1 := by
      simp [roundDiv, Nat.compare_eq_gt.2 hlt]
    rw [hround, Nat.mul_add, Nat.mul_assoc]
    omega
  · have : den * (num / den) ≤ den * roundDiv tie num den :=
      Nat.mul_le_mul_left _ (div_le_roundDiv tie num den)
    rw [Nat.mul_assoc]
    omega

theorem two_mul_roundDiv_le (tie : Tie) (num den : Nat) :
    2 * den * roundDiv tie num den ≤ 2 * num + den := by
  have hdiv := Nat.div_add_mod num den
  rcases Nat.lt_or_ge (2 * (num % den)) den with hlt | hge
  · have hround : roundDiv tie num den = num / den := by
      simp [roundDiv, Nat.compare_eq_lt.2 hlt]
    rw [hround, Nat.mul_assoc]
    omega
  · have := Nat.mul_le_mul_left (2 * den) (roundDiv_le_div_add_one tie num den)
    rw [Nat.mul_add, Nat.mul_assoc 2 den (num / den)] at this
    omega

theorem roundDiv_mul (tie : Tie) (q : Nat) {den : Nat} (h : 0 < den) :
    roundDiv tie (q * den) den = q := by
  have hmod : q * den % den = 0 := Nat.mul_mod_left q den
  have hdiv : q * den / den = q := Nat.mul_div_cancel q h
  simp [roundDiv, hmod, hdiv, Nat.compare_eq_lt.2 h]

/-- Ten to the power of `e`. -/
def powerOfTen (e : Nat) : Nat := Nat.pow 10 e

theorem powerOfTen_zero : powerOfTen 0 = 1 := rfl

theorem powerOfTen_pos (e : Nat) : 0 < powerOfTen e := Nat.pow_pos (by omega)

namespace Binary64

/-- The number of the finite magnitude nearest to the quotient, a tie to the even one.  Quotients
beyond the finite ones get the numbers that would follow. -/
def nearestIndex (num den : Nat) : Nat :=
  let scaled := num * unitsPerOne
  let step := (scaled / den).log2 - 52
  step * perBinade + roundDiv .toEven scaled (den <<< step)

/-- The number nearest to a quotient, of the given sign; infinite beyond the finite ones. -/
def ofRatio (negative : Bool) (num den : Nat) : Binary64 :=
  if h : nearestIndex num den < finiteCount then .finite negative ⟨nearestIndex num den, h⟩
  else .infinity negative

theorem ofRatio_eq_finite_iff {negative sign : Bool} {num den : Nat} {index : Fin finiteCount} :
    ofRatio sign num den = .finite negative index ↔
      sign = negative ∧ nearestIndex num den = index := by
  rw [ofRatio]
  split
  · rw [finite.injEq, Fin.ext_iff]
  · rename_i hlt
    refine iff_of_false nofun ?_
    rintro ⟨-, heq⟩
    exact hlt (heq ▸ index.isLt)

theorem isNegative_ofRatio (negative : Bool) (num den : Nat) :
    (ofRatio negative num den).isNegative = negative := by
  rw [ofRatio]
  split <;> rfl

theorem withSign_ofRatio (sign negative : Bool) (num den : Nat) :
    (ofRatio sign num den).withSign negative = ofRatio negative num den := by
  rw [ofRatio, ofRatio]
  split <;> rfl

/-- The number nearest to an integer. -/
def ofInt (n : Int) : Binary64 := ofRatio (n < 0) n.natAbs 1

/-- The number nearest to `digits * 10 ^ exponent`.  Beyond four hundred places on either side the
result is known without working out the power. -/
def ofScientific (negative : Bool) (digits : Nat) (exponent : Int) : Binary64 :=
  if digits = 0 then .withSign negative zero
  else if 400 < exponent then .infinity negative
  else if exponent + digits.log2 < -400 then .withSign negative zero
  else if 0 ≤ exponent then ofRatio negative (digits * powerOfTen exponent.toNat) 1
  else ofRatio negative digits (powerOfTen (-exponent).toNat)

/-- The second and the third step of rounding a finite number, which start from its product with the
power of ten.  A number whose product is infinite stays as it is, and a zero loses its sign. -/
def roundProduct (places : Nat) (negative : Bool) (index : Fin finiteCount) : Binary64 → Binary64
  | .finite _ scaled =>
    let whole := roundDiv .up (units scaled) unitsPerOne
    ofRatio (negative && whole != 0) whole (powerOfTen places)
  | _ => .finite negative index

/-- The number rounded to `places` digits behind the point, a half away from zero, in three steps
that each give the nearest number: times the power of ten, to a whole number, and by the power
again. -/
def roundTo (places : Nat) : Binary64 → Binary64
  | .finite negative index =>
    roundProduct places negative index
      (ofRatio negative (units index * powerOfTen places) unitsPerOne)
  | x => x

theorem roundTo_finite (places : Nat) (negative : Bool) (index : Fin finiteCount) :
    (finite negative index).roundTo places = roundProduct places negative index
      (ofRatio negative (units index * powerOfTen places) unitsPerOne) := rfl

theorem roundProduct_finite (places : Nat) (negative : Bool) (index : Fin finiteCount) (sign : Bool)
    (scaled : Fin finiteCount) : roundProduct places negative index (finite sign scaled) =
      ofRatio (negative && roundDiv .up (units scaled) unitsPerOne != 0)
        (roundDiv .up (units scaled) unitsPerOne) (powerOfTen places) := rfl

end Binary64

end MessageFormat
