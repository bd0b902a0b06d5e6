import Mathlib.Tactic.Linarith
import Mathlib.Tactic.Ring
import MessageFormat.Binary64.Rounding

/-!
# The nearest number

`Binary64.nearestIndex` is worked out by a formula.  What it means: a magnitude is nearest to a
quotient if this lies between the midpoints to the neighbours of the magnitude, and on a midpoint
only if the magnitude is an even one.

* `Binary64.units_run`, `Binary64.units_gaps` : where the magnitudes lie, and how far apart;
* `Binary64.nearestIndex_eq_iff` : just one magnitude is nearest to a quotient, and the formula
  gives it.
-/

namespace MessageFormat

/-- Of two natural numbers that are equally near to a quotient, the even one is taken. -/
theorem roundDiv_mod_two_of_tie (num : Nat) {den : Nat} (hden : 0 < den)
    (h : 2 * num = 2 * den * roundDiv .toEven num den + den ∨
      2 * num + den = 2 * den * roundDiv .toEven num den) :
    roundDiv .toEven num den % 2 = 0 := by
  have hsplit := Nat.div_add_mod num den
  have hmod := Nat.mod_lt num hden
  have htie : 2 * (num % den) = den := by
    have hlow := div_le_roundDiv .toEven num den
    have hhigh := roundDiv_le_div_add_one .toEven num den
    have hcases : roundDiv .toEven num den = num / den ∨
        roundDiv .toEven num den = num / den + 1 := by omega
    rcases hcases with hround | hround
    · rw [hround, Nat.mul_assoc] at h
      omega
    · rw [hround, Nat.mul_assoc, Nat.mul_succ] at h
      omega
  have hround : roundDiv .toEven num den = num / den + num / den % 2 := by
    simp [roundDiv, htie]
  omega

/-- A quotient is rounded to no more than a natural number that it does not exceed. -/
theorem roundDiv_le (tie : Tie) {num den q : Nat} (hden : 0 < den) (h : num ≤ q * den) :
    roundDiv tie num den ≤ q := by
  have hround := two_mul_roundDiv_le tie num den
  have hlt : 2 * roundDiv tie num den < 2 * q + 2 :=
    Nat.lt_of_mul_lt_mul_left (a := den) (by linarith)
  omega

namespace Binary64

/-! ### Where magnitudes lie -/

/-- From `2 ^ 52` to `2 ^ 53` times a power of two, the magnitudes are as far apart as that power;
and below that, they are one unit apart. -/
theorem units_run {step q : Nat} (hq : q ≤ 2 * perBinade) (hstep : step ≠ 0 → perBinade ≤ q) :
    units (step * perBinade + q) = q * 2 ^ step := by
  have hpos := perBinade_pos
  rcases Nat.lt_or_ge q perBinade with hlt | hge
  · obtain rfl : step = 0 := Decidable.byContradiction fun hne => absurd (hstep hne) (by omega)
    rw [Nat.zero_mul, Nat.zero_add, units_of_lt hlt, Nat.pow_zero, Nat.mul_one]
  · obtain ⟨r, rfl⟩ := Nat.exists_eq_add_of_le hge
    have hk : step * perBinade + (perBinade + r) = r + perBinade * (step + 1) := by
      rw [Nat.mul_succ, Nat.mul_comm]
      omega
    rcases Nat.lt_or_ge r perBinade with hr | hr
    · have hdiv : (r + perBinade * (step + 1)) / perBinade = step + 1 := by
        rw [Nat.add_mul_div_left _ _ hpos, Nat.div_eq_of_lt hr, Nat.zero_add]
      have hmod : (r + perBinade * (step + 1)) % perBinade = r := by
        rw [Nat.add_mul_mod_self_left, Nat.mod_eq_of_lt hr]
      rw [hk, units_of_le (by rw [Nat.mul_succ]; omega), hdiv, hmod, Nat.shiftLeft_eq,
        Nat.add_sub_cancel]
    · -- the next power of two
      obtain rfl : r = perBinade := by omega
      have hnext : perBinade + perBinade * (step + 1) = perBinade * (step + 2) := by
        rw [Nat.mul_succ _ (step + 1)]
        omega
      rw [hk, hnext, units_of_le (Nat.le_mul_of_pos_right _ (by omega)),
        Nat.mul_div_cancel_left _ hpos, Nat.mul_mod_right, Nat.shiftLeft_eq, Nat.add_zero,
        show step + 2 - 1 = step + 1 from rfl, Nat.pow_succ', ← Nat.mul_assoc, Nat.mul_two]

/-- Above a magnitude of a run, the next one is at least as far away as within the run. -/
theorem units_add_le {step q : Nat} (hq : q ≤ 2 * perBinade) (hstep : step ≠ 0 → perBinade ≤ q) :
    units (step * perBinade + q) + 2 ^ step ≤ units (step * perBinade + q + 1) := by
  rw [units_run hq hstep]
  rcases Nat.lt_or_eq_of_le hq with hlt | rfl
  · rw [Nat.add_assoc, units_run hlt fun hne => Nat.le_succ_of_le (hstep hne), Nat.succ_mul]
  · have hpos := perBinade_pos
    have hk : step * perBinade + 2 * perBinade + 1 = (step + 1) * perBinade + (perBinade + 1) := by
      ring
    rw [hk, units_run (by omega) (by omega), Nat.pow_succ]
    linarith [Nat.two_pow_pos step]

/-- Every magnitude lies between two powers of two. -/
theorem exists_run (k : Nat) : ∃ step q, k = step * perBinade + q ∧ q < 2 * perBinade ∧
    (step ≠ 0 → perBinade ≤ q) := by
  have hpos := perBinade_pos
  rcases Nat.lt_or_ge k perBinade with hlt | hge
  · exact ⟨0, k, by omega, by omega, nofun⟩
  · have hsplit := Nat.div_add_mod k perBinade
    have hmod := Nat.mod_lt k hpos
    obtain ⟨step, hstep⟩ : ∃ step, k / perBinade = step + 1 :=
      Nat.exists_eq_succ_of_ne_zero (Nat.ne_of_gt (Nat.div_pos hge hpos))
    refine ⟨step, perBinade + k % perBinade, ?_, by omega, fun _ => by omega⟩
    rw [hstep, Nat.mul_succ, Nat.mul_comm] at hsplit
    omega

/-- The distances around a magnitude are equal, unless it is a power of two: there, the distance
doubles. -/
theorem units_gaps (j : Nat) :
    units (j + 2) + units j = 2 * units (j + 1) ∨
      ∃ s, units (j + 1) = perBinade * 2 ^ (s + 1) ∧ units (j + 1) = units j + 2 ^ s ∧
        units (j + 2) = units (j + 1) + 2 ^ (s + 1) := by
  obtain ⟨step, q, hk, hq, hstep⟩ := exists_run (j + 1)
  have hnext : units (j + 2) = q * 2 ^ step + 2 ^ step := by
    rw [show j + 2 = step * perBinade + (q + 1) by omega, units_run (by omega) (by omega),
      Nat.succ_mul]
  rw [hk, hnext, units_run (by omega) hstep]
  by_cases hfirst : step ≠ 0 ∧ q = perBinade
  · -- the magnitude before a power of two is the last of the run below
    obtain ⟨hne, rfl⟩ := hfirst
    obtain ⟨s, rfl⟩ := Nat.exists_eq_succ_of_ne_zero hne
    have hpos := perBinade_pos
    refine .inr ⟨s, rfl, ?_, rfl⟩
    rw [Nat.succ_mul] at hk
    rw [show j = s * perBinade + (2 * perBinade - 1) by omega, units_run (by omega) (by omega),
      Nat.pow_succ', ← Nat.succ_mul, ← Nat.mul_assoc, Nat.mul_comm perBinade 2]
    rfl
  · left
    obtain ⟨r, rfl⟩ : ∃ r, q = r + 1 := by
      refine Nat.exists_eq_succ_of_ne_zero ?_
      rintro rfl
      have hpos := perBinade_pos
      obtain rfl : step = 0 := Decidable.byContradiction fun hne => absurd (hstep hne) (by omega)
      omega
    rw [show j = step * perBinade + r by omega, units_run (by omega) (by omega), Nat.succ_mul]
    omega

/-- The distances between magnitudes never shrink. -/
theorem two_mul_units_le (j : Nat) : 2 * units (j + 1) ≤ units j + units (j + 2) := by
  rcases units_gaps j with h | ⟨s, -, hbelow, habove⟩
  · omega
  · rw [Nat.pow_succ] at habove
    omega

/-! ### The nearest magnitude -/

/-- The magnitude number `k` is nearest to the quotient: this lies between the midpoints to its
neighbours, and is one of the midpoints only if `k` is even. -/
structure IsNearest (num den k : Nat) : Prop where
  /-- The quotient is not beyond the midpoint above. -/
  le_above : 2 * (num * unitsPerOne) ≤ den * (units k + units (k + 1))
  /-- It is not beyond the midpoint below, if there is one. -/
  below_le : ∀ j, k = j + 1 → den * (units j + units k) ≤ 2 * (num * unitsPerOne)
  /-- It is the midpoint above only if the magnitude is an even one. -/
  even_above : 2 * (num * unitsPerOne) = den * (units k + units (k + 1)) → k % 2 = 0
  /-- It is the midpoint below only if the magnitude is an even one. -/
  even_below : ∀ j, k = j + 1 → den * (units j + units k) = 2 * (num * unitsPerOne) → k % 2 = 0

variable {num den k : Nat}

theorem IsNearest.le_of_isNearest {k' : Nat} (hden : 0 < den) (h : IsNearest num den k)
    (h' : IsNearest num den k') : k' ≤ k := by
  refine Nat.not_lt.1 fun hlt => ?_
  obtain ⟨j, rfl⟩ : ∃ j, k' = j + 1 := Nat.exists_eq_succ_of_ne_zero (Nat.ne_zero_of_lt hlt)
  have hle : units k ≤ units j := units_le_units (Nat.le_of_lt_succ hlt)
  have hle' : units (k + 1) ≤ units (j + 1) := units_le_units hlt
  -- both are as near to the midpoint between them, so that one of them is odd
  have hmiddle : den * (units k + units (k + 1)) = den * (units j + units (j + 1)) := by
    have hmono : den * (units k + units (k + 1)) ≤ den * (units j + units (j + 1)) :=
      Nat.mul_le_mul_left _ (Nat.add_le_add hle hle')
    have := h.le_above
    have := h'.below_le j rfl
    omega
  have heq := Nat.eq_of_mul_eq_mul_left hden hmiddle
  have hunits : units k = units j := by omega
  obtain rfl : k = j := by
    refine Decidable.byContradiction fun hne => ?_
    have := units_lt_units (show k < j by omega)
    omega
  have := h.even_above (Nat.le_antisymm h.le_above (h'.below_le k rfl))
  have := h'.even_below k rfl (Nat.le_antisymm (h'.below_le k rfl) h.le_above)
  omega

/-- Just one magnitude is nearest to a quotient. -/
theorem IsNearest.unique {k' : Nat} (hden : 0 < den) (h : IsNearest num den k)
    (h' : IsNearest num den k') : k = k' :=
  Nat.le_antisymm (h'.le_of_isNearest hden h) (h.le_of_isNearest hden h')

/-- No magnitude beyond one that the quotient does not exceed is nearest to the quotient. -/
theorem IsNearest.le_of_mul_le {m : Nat} (hden : 0 < den) (h : IsNearest num den k)
    (hle : num * unitsPerOne ≤ den * units m) : k ≤ m := by
  refine Nat.not_lt.1 fun hlt => ?_
  obtain ⟨j, rfl⟩ : ∃ j, k = j + 1 := Nat.exists_eq_succ_of_ne_zero (Nat.ne_zero_of_lt hlt)
  have hbelow := h.below_le j rfl
  have hbeyond := Nat.mul_le_mul_left den (units_le_units (Nat.le_of_lt_succ hlt))
  have hgap := Nat.mul_lt_mul_of_pos_left (units_lt_succ j) hden
  linarith

/-- Within a run, the magnitude of a rounded quotient is nearest. -/
theorem isNearest_of_run {step r : Nat} (hden : 0 < den)
    (hr : r = roundDiv .toEven (num * unitsPerOne) (den * 2 ^ step)) (hle : r ≤ 2 * perBinade)
    (hrun : step ≠ 0 → perBinade ≤ r)
    (hstep : step ≠ 0 → perBinade * (den * 2 ^ step) ≤ num * unitsPerOne) :
    IsNearest num den (step * perBinade + r) := by
  have hpos : 0 < den * 2 ^ step := Nat.mul_pos hden (Nat.two_pow_pos step)
  have hlow : 2 * (den * 2 ^ step) * r ≤ 2 * (num * unitsPerOne) + den * 2 ^ step :=
    hr ▸ two_mul_roundDiv_le .toEven _ _
  have hhigh : 2 * (num * unitsPerOne) ≤ 2 * (den * 2 ^ step) * r + den * 2 ^ step :=
    hr ▸ le_two_mul_roundDiv .toEven hpos
  have htie := roundDiv_mod_two_of_tie (num * unitsPerOne) hpos
  rw [← hr] at htie
  have heven : r % 2 = 0 → (step * perBinade + r) % 2 = 0 := by
    intro h
    rw [Nat.add_mod, Nat.mul_mod, h]
    rfl
  have hunits := units_run hle hrun
  have habove := Nat.mul_le_mul_left den (units_add_le hle hrun)
  rw [hunits] at habove
  -- below a power of two the distance is less, but the quotient was not rounded up to it
  have hbelow : ∀ j, step * perBinade + r = j + 1 →
      units j + 2 ^ step = r * 2 ^ step ∨ r * (den * 2 ^ step) ≤ num * unitsPerOne := by
    intro j hj
    by_cases hfirst : step ≠ 0 ∧ r = perBinade
    · exact .inr (hfirst.2 ▸ hstep hfirst.1)
    · left
      have hne : r ≠ 0 := by
        rintro rfl
        have hzero : step = 0 := Decidable.byContradiction fun hne => by
          have := hrun hne
          have hpos := perBinade_pos
          omega
        rw [hzero, Nat.zero_mul] at hj
        omega
      obtain ⟨q, rfl⟩ : ∃ q, r = q + 1 := Nat.exists_eq_succ_of_ne_zero hne
      rw [show j = step * perBinade + q by omega, units_run (by omega) (by omega), Nat.succ_mul]
  constructor
  · rw [hunits]
    linarith
  · intro j hj
    rw [hunits]
    rcases hbelow j hj with heq | hge
    · linarith [congrArg (den * ·) heq]
    · have hlt : units j < r * 2 ^ step := hunits ▸ units_lt_units (by omega)
      have := Nat.mul_lt_mul_of_pos_left hlt hden
      linarith
  · rw [hunits]
    intro heq
    exact heven (htie (.inl (by linarith)))
  · intro j hj
    rw [hunits]
    intro heq
    rcases hbelow j hj with hgap | hge
    · refine heven (htie (.inr ?_))
      linarith [congrArg (den * ·) hgap]
    · have hlt : units j < r * 2 ^ step := hunits ▸ units_lt_units (by omega)
      have := Nat.mul_lt_mul_of_pos_left hlt hden
      linarith

/-- The formula gives the nearest magnitude. -/
theorem isNearest_nearestIndex (hden : 0 < den) : IsNearest num den (nearestIndex num den) := by
  generalize hq : num * unitsPerOne / den = quotient
  generalize hs : quotient.log2 - 52 = step
  have hformula : nearestIndex num den =
      step * perBinade + roundDiv .toEven (num * unitsPerOne) (den * 2 ^ step) := by
    rw [nearestIndex, hq, hs, Nat.shiftLeft_eq]
  have hfloor : num * unitsPerOne / (den * 2 ^ step) = quotient / 2 ^ step := by
    rw [← Nat.div_div_eq_div_mul, hq]
  have hlow := div_le_roundDiv .toEven (num * unitsPerOne) (den * 2 ^ step)
  have hhigh := roundDiv_le_div_add_one .toEven (num * unitsPerOne) (den * 2 ^ step)
  have hlt : quotient / 2 ^ step < 2 * perBinade := by
    rw [Nat.div_lt_iff_lt_mul (Nat.two_pow_pos step)]
    calc quotient
      _ < 2 ^ (quotient.log2 + 1) := Nat.lt_log2_self
      _ ≤ 2 ^ (53 + step) := Nat.pow_le_pow_right (by omega) (by omega)
      _ = 2 * perBinade * 2 ^ step := by rw [Nat.pow_add]; rfl
  have hge : step ≠ 0 → perBinade ≤ quotient / 2 ^ step := by
    intro hne
    rw [Nat.le_div_iff_mul_le (Nat.two_pow_pos step)]
    calc perBinade * 2 ^ step
      _ = 2 ^ quotient.log2 := by
        rw [show quotient.log2 = 52 + step by omega, Nat.pow_add]
        rfl
      _ ≤ quotient := Nat.log2_self_le (by rintro rfl; simp at hs; omega)
  rw [hfloor] at hlow hhigh
  rw [hformula]
  refine isNearest_of_run hden rfl ?_ ?_ ?_
  · omega
  · intro hne
    have := hge hne
    omega
  · intro hne
    have hle := hge hne
    rwa [← hfloor, Nat.le_div_iff_mul_le (Nat.mul_pos hden (Nat.two_pow_pos step))] at hle

/-- **Just one magnitude is nearest to a quotient**, and the formula gives it. -/
theorem nearestIndex_eq_iff (hden : 0 < den) : nearestIndex num den = k ↔ IsNearest num den k := by
  constructor
  · rintro rfl
    exact isNearest_nearestIndex hden
  · exact (isNearest_nearestIndex hden).unique hden

/-- The magnitude nearest to a quotient that does not exceed the greatest finite one is finite. -/
theorem nearestIndex_lt_of_mul_le (hden : 0 < den)
    (h : num * unitsPerOne ≤ den * units (finiteCount - 1)) :
    nearestIndex num den < finiteCount :=
  Nat.lt_of_le_of_lt ((isNearest_nearestIndex hden).le_of_mul_le hden h) (by decide)

/-! ### Quotients -/

/-- A magnitude is nearest to its own value. -/
theorem isNearest_of_eq (hden : 0 < den) (h : num * unitsPerOne = den * units k) :
    IsNearest num den k := by
  have habove := Nat.mul_lt_mul_of_pos_left (units_lt_succ k) hden
  have hbelow : ∀ j, k = j + 1 → den * units j < den * units k := by
    rintro j rfl
    exact Nat.mul_lt_mul_of_pos_left (units_lt_succ j) hden
  constructor
  · linarith
  · intro j hj
    linarith [hbelow j hj]
  · intro heq
    linarith
  · intro j hj heq
    linarith [hbelow j hj]

theorem IsNearest.mul {c : Nat} (h : IsNearest num den k) (hc : 0 < c) :
    IsNearest (num * c) (den * c) k where
  le_above := by linarith [Nat.mul_le_mul_right c h.le_above]
  below_le j hj := by linarith [Nat.mul_le_mul_right c (h.below_le j hj)]
  even_above heq := h.even_above (Nat.eq_of_mul_eq_mul_right hc (by linarith))
  even_below j hj heq := h.even_below j hj (Nat.eq_of_mul_eq_mul_right hc (by linarith))

/-- What is nearest does not depend on how the quotient is written. -/
theorem nearestIndex_mul {c : Nat} (hden : 0 < den) (hc : 0 < c) :
    nearestIndex (num * c) (den * c) = nearestIndex num den :=
  (nearestIndex_eq_iff (Nat.mul_pos hden hc)).2 ((isNearest_nearestIndex hden).mul hc)

theorem nearestIndex_zero (hden : 0 < den) : nearestIndex 0 den = 0 := by
  refine (nearestIndex_eq_iff hden).2 (isNearest_of_eq hden ?_)
  rw [units_zero, Nat.zero_mul, Nat.mul_zero]

end Binary64

end MessageFormat
