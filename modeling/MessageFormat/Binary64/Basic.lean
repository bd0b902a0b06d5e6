/-!
# Binary64 numbers

The floating-point numbers of the `binary64` format, with their values kept exact.  Every finite one
is a whole number of *units* of 2^-1074, the least positive one, so questions about values are
questions about natural numbers.  The finite magnitudes are numbered in ascending order: magnitude
number `k` is `Binary64.units k` units, and that numbering is also their bit pattern.

* `Binary64.units_lt_units` : the numbering is in ascending order, so distinct numbers of a sign
  have distinct values;
* `Binary64.ofBits_toBits` : the bit pattern determines the number.
-/

namespace MessageFormat

/-- The number of magnitudes from one power of two up to the next, which is 2^52. -/
def perBinade : Nat := 0x10000000000000

theorem perBinade_pos : 0 < perBinade := by decide

/-- The number of finite magnitudes, which is 2047 times 2^52.  It is also the bit pattern of the
infinity without a sign, for the patterns of the finite ones are below it. -/
abbrev finiteCount : Nat := 0x7ff0000000000000

/-- A number of the `binary64` format. -/
inductive Binary64 where
  /-- Not a number. -/
  | nan
  /-- An infinity. -/
  | infinity (negative : Bool)
  /-- The finite number of the given sign and position among the finite magnitudes; zero, at
  position 0, has a sign too. -/
  | finite (negative : Bool) (index : Fin finiteCount)
deriving DecidableEq

namespace Binary64

/-- How many units of 2^-1074 the magnitude number `k` is.  The first 2^53 magnitudes are one unit
apart; from there on the distance doubles every 2^52. -/
def units (k : Nat) : Nat :=
  if k < perBinade then k else (perBinade + k % perBinade) <<< (k / perBinade - 1)

/-- How many units make one. -/
def unitsPerOne : Nat := 1 <<< 1074

theorem unitsPerOne_pos : 0 < unitsPerOne := by decide

/-- Zero, without a sign. -/
def zero : Binary64 := .finite false ⟨0, by decide⟩

instance : Inhabited Binary64 := ⟨zero⟩

/-- Whether the number is neither infinite nor `nan`. -/
def isFinite : Binary64 → Bool
  | .finite .. => true
  | _ => false

/-- Whether the number bears a minus sign. -/
def isNegative : Binary64 → Bool
  | .nan => false
  | .infinity negative => negative
  | .finite negative _ => negative

/-- The number with the given sign. -/
def withSign (negative : Bool) : Binary64 → Binary64
  | .nan => .nan
  | .infinity _ => .infinity negative
  | .finite _ index => .finite negative index

/-- The number without its sign. -/
def abs (x : Binary64) : Binary64 := x.withSign false

/-- Numeric equality: `nan` equals nothing, and the two zeros are equal. -/
instance : BEq Binary64 where
  beq
    | .infinity a, .infinity b => a == b
    | .finite a j, .finite b k => j == k && (a == b || j.val == 0)
    | _, _ => false

/-- The value, if it is a whole number. -/
def toInt? : Binary64 → Option Int
  | .finite negative index =>
    if units index % unitsPerOne = 0 then
      let whole := units index / unitsPerOne
      some (if negative then -whole else whole)
    else none
  | _ => none

/-! ### The numbering -/

theorem units_of_lt {k : Nat} (h : k < perBinade) : units k = k := if_pos h

theorem units_zero : units 0 = 0 := units_of_lt (by decide)

theorem units_of_le {k : Nat} (h : perBinade ≤ k) :
    units k = (perBinade + k % perBinade) <<< (k / perBinade - 1) := if_neg (Nat.not_lt.2 h)

theorem units_lt_succ (k : Nat) : units k < units (k + 1) := by
  have hpos := perBinade_pos
  rcases Nat.lt_trichotomy (k + 1) perBinade with hlt | heq | hgt
  · rw [units_of_lt hlt, units_of_lt (Nat.lt_of_succ_lt hlt)]
    exact Nat.lt_succ_self k
  · have hnext : units perBinade = perBinade := by decide
    rw [heq, hnext, units_of_lt (by omega)]
    omega
  · have hk : perBinade ≤ k := Nat.le_of_lt_succ hgt
    rw [units_of_le hk, units_of_le (Nat.le_of_lt hgt), Nat.shiftLeft_eq, Nat.shiftLeft_eq]
    have hsplit := Nat.div_add_mod k perBinade
    have hmod := Nat.mod_lt k hpos
    by_cases hlast : k % perBinade + 1 = perBinade
    -- the last magnitude before a power of two: the distance doubles behind it
    · have hnext : k + 1 = perBinade * (k / perBinade + 1) := by
        rw [Nat.mul_add, Nat.mul_one]
        omega
      have hdiv : 1 ≤ k / perBinade := (Nat.le_div_iff_mul_le hpos).2 (by omega)
      obtain ⟨e, he⟩ : ∃ e, k / perBinade = e + 1 := ⟨k / perBinade - 1, by omega⟩
      rw [hnext, Nat.mul_mod_right, Nat.mul_div_cancel_left _ hpos, he, Nat.add_sub_cancel,
        Nat.add_sub_cancel, Nat.pow_succ', ← Nat.mul_assoc]
      exact Nat.mul_lt_mul_of_pos_right (by omega) (Nat.two_pow_pos e)
    -- both magnitudes lie between the same powers of two
    · have hnext : k + 1 = (k % perBinade + 1) + perBinade * (k / perBinade) := by omega
      have hsmall : k % perBinade + 1 < perBinade := by omega
      have hmod' : (k + 1) % perBinade = k % perBinade + 1 := by
        rw [hnext, Nat.add_mul_mod_self_left, Nat.mod_eq_of_lt hsmall]
      have hdiv' : (k + 1) / perBinade = k / perBinade := by
        rw [hnext, Nat.add_mul_div_left _ _ hpos, Nat.div_eq_of_lt hsmall, Nat.zero_add]
      rw [hmod', hdiv']
      exact Nat.mul_lt_mul_of_pos_right (by omega) (Nat.two_pow_pos _)

/-- A later magnitude is a greater one. -/
theorem units_lt_units {j k : Nat} (h : j < k) : units j < units k := by
  induction k with
  | zero => omega
  | succ k ih =>
    rcases Nat.lt_or_eq_of_le (Nat.le_of_lt_succ h) with h | rfl
    · exact Nat.lt_trans (ih h) (units_lt_succ k)
    · exact units_lt_succ j

theorem units_le_units {j k : Nat} (h : j ≤ k) : units j ≤ units k := by
  rcases Nat.lt_or_eq_of_le h with hlt | rfl
  · exact Nat.le_of_lt (units_lt_units hlt)
  · exact Nat.le_refl _

/-! ### Bit patterns -/

/-- The bit of the minus sign, which is 2^63. -/
def signBit : Nat := 0x8000000000000000

/-- The bit pattern of the number, as a natural number below 2^64. -/
def encode : Binary64 → Nat
  | .nan => 0x7ff8000000000000
  | .infinity negative => finiteCount + if negative then signBit else 0
  | .finite negative index => index + if negative then signBit else 0

/-- The number of a bit pattern. -/
def decode (bits : Nat) : Binary64 :=
  let negative := decide (signBit ≤ bits)
  if h : bits % signBit < finiteCount then .finite negative ⟨bits % signBit, h⟩
  else if bits % signBit = finiteCount then .infinity negative
  else .nan

/-- The bit pattern of the number. -/
def toBits (x : Binary64) : UInt64 := UInt64.ofNat x.encode

/-- The number of a bit pattern. -/
def ofBits (bits : UInt64) : Binary64 := decode bits.toNat

theorem encode_lt (x : Binary64) : x.encode < UInt64.size := by
  rcases x with _ | negative | ⟨negative, index, hindex⟩
  · decide
  · cases negative <;> decide
  · have : index < 0x7ff0000000000000 := hindex
    cases negative <;> simp only [encode, signBit, UInt64.size, Bool.false_eq_true, if_true,
      if_false] <;> omega

theorem decode_encode (x : Binary64) : decode x.encode = x := by
  rcases x with _ | negative | ⟨negative, index, hindex⟩
  · rfl
  · cases negative <;> rfl
  · have hsmall : index < signBit := Nat.lt_trans hindex (by decide)
    cases negative
    · have hmod : index % signBit = index := Nat.mod_eq_of_lt hsmall
      simp only [encode, Bool.false_eq_true, if_false, Nat.add_zero, decode, hmod,
        Nat.not_le.2 hsmall, decide_false, dif_pos hindex]
    · have hmod : (index + signBit) % signBit = index := by
        rw [Nat.add_mod_right, Nat.mod_eq_of_lt hsmall]
      simp only [encode, if_true, decode, hmod, Nat.le_add_left, decide_true, dif_pos hindex]

theorem ofBits_toBits (x : Binary64) : ofBits x.toBits = x := by
  rw [ofBits, toBits, UInt64.toNat_ofNat', Nat.mod_eq_of_lt x.encode_lt, decode_encode]

end Binary64

end MessageFormat
