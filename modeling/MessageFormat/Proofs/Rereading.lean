import MessageFormat.Proofs.Decimals
import MessageFormat.Proofs.Nearest

/-!
# Reading numbers back

A number that was rounded to some places behind the point, and then printed with as many, is read
back as it was.  Rounded numbers are nearest to decimal fractions, but the fraction that is printed
is the one nearest to the number, and this might be another one.  It is not for as few places as are
ever printed.

* `Binary64.IsNearest.fixed` : what a number is nearest to and what is printed of it;
* `Binary64.nearestIndex_fixed_of_roundTo` : rounded numbers are nearest to what is printed of them;
* `NumberStyle.ofText?_format` : what a formatted number is read as;
* `Binary64.beq_withSign_roundTo` : numbers are rounded alike on either side of zero.
-/

namespace MessageFormat

namespace Binary64

/-! ### Printed fractions -/

theorem two_pow_dvd_of_le {e places s : Nat} (hplaces : places ≤ 22)
    (h : 2 ^ e ≤ 10 ^ places * 2 ^ s) : 2 ^ e ∣ perBinade * 2 ^ s * 10 ^ places := by
  have hbinade : perBinade = 2 ^ 52 := rfl
  have hten : 10 ^ places = 5 ^ places * 2 ^ places := Nat.mul_pow 5 2 places
  have hfive : 5 ^ places ≤ 2 ^ 52 := by
    calc 5 ^ places
      _ ≤ 5 ^ 22 := Nat.pow_le_pow_right (by omega) hplaces
      _ ≤ 2 ^ 52 := by decide
  have hle : e ≤ 52 + places + s := by
    refine (Nat.pow_le_pow_iff_right Nat.one_lt_two).1 ?_
    calc 2 ^ e
      _ ≤ 5 ^ places * 2 ^ places * 2 ^ s := by rwa [← hten]
      _ ≤ 2 ^ 52 * 2 ^ places * 2 ^ s :=
        Nat.mul_le_mul_right _ (Nat.mul_le_mul_right _ hfive)
      _ = 2 ^ (52 + places + s) := by rw [Nat.pow_add, Nat.pow_add]
  rw [hbinade, hten]
  exact (Nat.pow_dvd_pow 2 hle).trans ⟨5 ^ places, by ring⟩

/-- One is a power of two, and many magnitudes away from zero. -/
theorem exists_unitsPerOne_eq : ∃ e, unitsPerOne = 2 ^ (e + 52) := by
  -- for every exponent, so that the power is not worked out
  have h : ∀ n, 1 <<< (n + 52) = 2 ^ (n + 52) := fun n => Nat.one_shiftLeft (n + 52)
  exact ⟨1022, h 1022⟩

/-- Where the magnitudes lie far enough apart, those at powers of two are decimal fractions of as
many places. -/
theorem unitsPerOne_dvd_of_le {places s : Nat} (hplaces : places ≤ 22)
    (h : unitsPerOne ≤ powerOfTen places * 2 ^ s) :
    unitsPerOne ∣ perBinade * 2 ^ s * powerOfTen places := by
  obtain ⟨e, he⟩ := exists_unitsPerOne_eq
  rw [he] at h ⊢
  exact two_pow_dvd_of_le hplaces h

variable {places k : Nat}

/-- A magnitude that is a decimal fraction of as many places is printed exactly. -/
theorem isNearest_fixed_of_dvd (h : unitsPerOne ∣ units k * powerOfTen places) :
    IsNearest (fixed k places).digits (powerOfTen places) k := by
  obtain ⟨digits, hdigits⟩ := h
  refine isNearest_of_eq (powerOfTen_pos places) ?_
  rw [fixed, hdigits, Nat.mul_comm unitsPerOne, roundDiv_mul _ _ unitsPerOne_pos,
    ← Nat.mul_comm unitsPerOne, ← hdigits, Nat.mul_comm]

/-- **A magnitude that is nearest to a decimal fraction is nearest to what is printed of it**, if it
is printed with as many places as the fraction has. -/
theorem IsNearest.fixed {whole : Nat} (h : IsNearest whole (powerOfTen places) k)
    (hplaces : places ≤ 22) : IsNearest (fixed k places).digits (powerOfTen places) k := by
  have hten := powerOfTen_pos places
  have hpos := unitsPerOne_pos
  have hlow := two_mul_roundDiv_le .toEven (units k * powerOfTen places) unitsPerOne
  have hhigh : 2 * (units k * powerOfTen places) ≤ 2 * unitsPerOne *
      roundDiv .toEven (units k * powerOfTen places) unitsPerOne + unitsPerOne :=
    le_two_mul_roundDiv .toEven unitsPerOne_pos
  by_cases hdvd : unitsPerOne ∣ units k * powerOfTen places
  · exact isNearest_fixed_of_dvd hdvd
  change IsNearest (roundDiv .toEven (units k * powerOfTen places) unitsPerOne) _ k
  generalize roundDiv .toEven (units k * powerOfTen places) unitsPerOne = digits at hlow hhigh ⊢
  have hneighbours : ∀ j, k = j + 1 → digits < whole →
      units (j + 2) + units j = 2 * units (j + 1) := by
    rintro j rfl hlt
    refine (units_gaps j).resolve_right ?_
    rintro ⟨s, hunits, -, habove⟩
    -- the fraction is at least half a unit of the last place off
    refine hdvd (hunits ▸ unitsPerOne_dvd_of_le hplaces ?_)
    have hstep := Nat.mul_le_mul_right unitsPerOne (Nat.succ_le_of_lt hlt)
    have hle := h.le_above
    rw [habove] at hle
    linarith
  rcases Nat.lt_trichotomy digits whole with hlt | rfl | hgt
  · -- the printed fraction is on the other side of the number, and not further off
    have hstep := Nat.mul_le_mul_right unitsPerOne (Nat.succ_le_of_lt hlt)
    constructor
    · linarith [h.le_above]
    · rintro j rfl
      have hgaps := congrArg (powerOfTen places * ·) (hneighbours j rfl hlt)
      linarith [h.le_above]
    · intro heq
      refine h.even_above ?_
      linarith [h.le_above]
    · rintro j rfl heq
      have hgaps := congrArg (powerOfTen places * ·) (hneighbours j rfl hlt)
      refine h.even_above ?_
      linarith [h.le_above]
  · exact h
  · -- the same, but there the distance to the neighbour might be greater
    have hstep := Nat.mul_le_mul_right unitsPerOne (Nat.succ_le_of_lt hgt)
    have hne : k ≠ 0 := by
      rintro rfl
      rw [units_zero, Nat.zero_mul] at hlow
      have : 0 ≤ whole * unitsPerOne := Nat.zero_le _
      linarith
    obtain ⟨j, rfl⟩ : ∃ j, k = j + 1 := Nat.exists_eq_succ_of_ne_zero hne
    have hgaps := Nat.mul_le_mul_left (powerOfTen places) (two_mul_units_le j)
    constructor
    · linarith [h.below_le j rfl]
    · rintro _ ⟨⟩
      linarith [h.below_le j rfl]
    · intro heq
      refine h.even_below j rfl ?_
      linarith [h.below_le j rfl]
    · rintro _ ⟨⟩ heq
      refine h.even_below j rfl ?_
      linarith [h.below_le j rfl]

/-- A magnitude whose product with the power of ten is beyond the finite ones is a whole number. -/
theorem unitsPerOne_dvd_of_overflow (hplaces : places ≤ 22)
    (h : finiteCount ≤ nearestIndex (units k * powerOfTen places) unitsPerOne) :
    unitsPerOne ∣ units k := by
  obtain ⟨step, q, rfl, hq, hstep⟩ := exists_run k
  rw [units_run (Nat.le_of_lt hq) hstep] at h ⊢
  refine Dvd.dvd.mul_left ?_ q
  have hproduct : units (finiteCount - 1) ≤ q * 2 ^ step * powerOfTen places := by
    refine Nat.le_of_not_lt fun hlt => Nat.not_lt.2 h ?_
    refine nearestIndex_lt_of_mul_le unitsPerOne_pos ?_
    rw [Nat.mul_comm]
    exact Nat.mul_le_mul_left _ (Nat.le_of_lt hlt)
  have hten : powerOfTen places ≤ 2 ^ 74 := by
    calc powerOfTen places
      _ ≤ 10 ^ 22 := Nat.pow_le_pow_right (by omega) hplaces
      _ ≤ 2 ^ 74 := by decide
  have hgreatest : 2 ^ 53 * unitsPerOne * 2 ^ 74 < units (finiteCount - 1) := by decide
  have hle : unitsPerOne ≤ 2 ^ step := by
    refine Nat.le_of_not_lt fun hlt => Nat.not_le.2 hgreatest (hproduct.trans ?_)
    refine Nat.mul_le_mul (Nat.mul_le_mul ?_ (Nat.le_of_lt hlt)) hten
    exact Nat.le_of_lt hq
  obtain ⟨e, he⟩ := exists_unitsPerOne_eq
  rw [he] at hle ⊢
  exact Nat.pow_dvd_pow 2 ((Nat.pow_le_pow_iff_right Nat.one_lt_two).1 hle)

/-! ### Rounded numbers -/

/-- Rounded numbers are nearest to what is printed of them. -/
theorem nearestIndex_fixed_of_roundTo {x : Binary64} {negative : Bool} {index : Fin finiteCount}
    (hplaces : places ≤ 22) (h : x.roundTo places = .finite negative index) :
    nearestIndex (fixed index places).digits (powerOfTen places) = index := by
  have hten := powerOfTen_pos places
  rw [nearestIndex_eq_iff hten]
  cases x with
  | nan | infinity => cases h
  | finite sign k =>
    rw [roundTo_finite] at h
    generalize hproduct : ofRatio sign (units k * powerOfTen places) unitsPerOne = product at h
    cases product with
    | finite _ scaled =>
      obtain ⟨-, hnearest⟩ := ofRatio_eq_finite_iff.1 h
      exact IsNearest.fixed ((nearestIndex_eq_iff hten).1 hnearest) hplaces
    | nan | infinity =>
      -- the number was left as it is
      cases h
      refine isNearest_fixed_of_dvd (Dvd.dvd.mul_right (unitsPerOne_dvd_of_overflow hplaces ?_) _)
      refine Nat.le_of_not_lt fun hlt => ?_
      have hfinite : ofRatio negative _ _ = .finite negative ⟨_, hlt⟩ :=
        ofRatio_eq_finite_iff.2 ⟨rfl, rfl⟩
      cases hproduct.symm.trans hfinite

/-- A finite number is rounded to a finite one, for the greatest magnitude is a whole number. -/
theorem isFinite_roundTo {x : Binary64} (hx : x.isFinite = true) (places : Nat) :
    (x.roundTo places).isFinite = true := by
  cases x with
  | nan | infinity => cases hx
  | finite negative index =>
    rw [roundTo_finite]
    cases ofRatio negative (units index * powerOfTen places) unitsPerOne with
    | nan | infinity => rfl
    | finite sign scaled =>
      have hdvd : unitsPerOne ∣ units (finiteCount - 1) := Nat.dvd_of_mod_eq_zero (by decide)
      obtain ⟨greatest, hgreatest⟩ := hdvd
      have hscaled : units scaled ≤ unitsPerOne * greatest :=
        hgreatest ▸ units_le_units (Nat.le_sub_one_of_lt scaled.isLt)
      have hwhole : roundDiv .up (units scaled) unitsPerOne ≤ greatest :=
        roundDiv_le .up unitsPerOne_pos (hscaled.trans_eq (Nat.mul_comm _ _))
      rw [roundProduct_finite, ofRatio, dif_pos]
      · rfl
      · refine nearestIndex_lt_of_mul_le (powerOfTen_pos places) ?_
        rw [hgreatest, Nat.mul_comm unitsPerOne]
        exact (Nat.mul_le_mul_right _ hwhole).trans
          (Nat.le_mul_of_pos_left _ (powerOfTen_pos places))

/-! ### Signs -/

theorem ofRatio_zero (sign : Bool) {den : Nat} (hden : 0 < den) :
    ofRatio sign 0 den = zero.withSign sign :=
  ofRatio_eq_finite_iff.2 ⟨rfl, nearestIndex_zero hden⟩

/-- Equality does not look at the sign of a zero. -/
theorem beq_withSign_zero (x : Binary64) (sign : Bool) :
    (x == zero.withSign sign) = (x == zero) := by
  cases x with
  | nan | infinity => rfl
  | finite negative index =>
    change (index == ⟨0, _⟩ && (negative == sign || index.val == 0)) =
      (index == ⟨0, _⟩ && (negative == false || index.val == 0))
    by_cases hzero : index.val = 0
    · rw [hzero, beq_self_eq_true, Bool.or_true, Bool.or_true]
    · rw [beq_false_of_ne (fun heq => hzero (congrArg Fin.val heq)), Bool.false_and, Bool.false_and]

/-- A number without a sign has none when it is rounded. -/
theorem isNegative_roundTo {x : Binary64} (h : x.isNegative = false) (places : Nat) :
    (x.roundTo places).isNegative = false := by
  cases x with
  | nan | infinity => exact h
  | finite negative index =>
    obtain rfl : negative = false := h
    rw [roundTo_finite]
    cases ofRatio false (units index * powerOfTen places) unitsPerOne with
    | finite _ scaled => exact isNegative_ofRatio _ _ _
    | nan | infinity => rfl

/-- **Numbers are rounded alike on either side of zero**: as without their sign, but for the sign of
a zero, which equality does not look at. -/
theorem beq_withSign_roundTo {x : Binary64} (hx : x.isFinite = true) (places : Nat) (y : Binary64) :
    (y == (x.abs.roundTo places).withSign x.isNegative) = (y == x.roundTo places) := by
  cases x with
  | nan | infinity => cases hx
  | finite negative index =>
    have hten := powerOfTen_pos places
    rw [show (finite negative index).abs = finite false index from rfl, roundTo_finite,
      roundTo_finite, ← withSign_ofRatio false negative]
    cases ofRatio false (units index * powerOfTen places) unitsPerOne with
    | nan | infinity => rfl
    | finite sign scaled =>
      rw [show (finite sign scaled).withSign negative = finite negative scaled from rfl,
        roundProduct_finite, roundProduct_finite, withSign_ofRatio]
      generalize roundDiv .up (units scaled) unitsPerOne = whole
      by_cases hwhole : whole = 0
      · rw [hwhole, ofRatio_zero _ hten, ofRatio_zero _ hten, beq_withSign_zero, beq_withSign_zero]
      · rw [bne_iff_ne.2 hwhole, Bool.and_true]
        rfl

/-! ### Reading -/

theorem ofScientific_neg {places : Nat} (hplaces : places ≤ 22) (negative : Bool) (digits : Nat) :
    ofScientific negative digits (-places) = ofRatio negative digits (powerOfTen places) := by
  have hten := powerOfTen_pos places
  rw [ofScientific]
  by_cases hdigits : digits = 0
  · rw [if_pos hdigits, hdigits, ofRatio_zero _ hten]
  rw [if_neg hdigits, if_neg (by omega), if_neg (by omega)]
  cases places with
  | zero =>
    rw [if_pos (by omega)]
    exact congrArg (ofRatio negative · 1) (Nat.mul_one digits)
  | succ places => rw [if_neg (by omega), Int.neg_neg, Int.toNat_natCast]

/-- What is printed of a number is read back, if the number is nearest to it, whether zeros at the
end are printed or not. -/
theorem ofText?_trimFraction (hplaces : places ≤ 22) {index : Fin finiteCount}
    (h : nearestIndex (fixed index places).digits (powerOfTen places) = index) (minimum : Nat) :
    ofText? (trimFraction minimum (fixed index places).text) = some (.finite false index) := by
  obtain ⟨whole, fraction, htext, hwhole, hfraction, rfl, hvalue⟩ :=
    Decimal.exists_text_eq (fixed index places).digits places
  obtain ⟨count, hcount⟩ := exists_trimZeros_append minimum fraction
  rw [show (fixed index fraction.length).text = _ from htext, trimFraction_join hwhole]
  generalize trimZeros minimum fraction = kept at hcount
  have hkept : ∀ c ∈ kept, isDigit c = true := fun c hc =>
    hfraction c (hcount ▸ List.mem_append_left _ hc)
  have hlength : fraction.length = kept.length + count := by
    rw [hcount, List.length_append, List.length_replicate]
  have hpower : powerOfTen fraction.length = powerOfTen kept.length * powerOfTen count := by
    rw [hlength]
    exact Nat.pow_add 10 kept.length count
  have hread := ofText?_join hwhole hkept false
  rw [if_neg Bool.false_ne_true] at hread
  rw [hread, ofScientific_neg (by omega), Option.some_inj, ofRatio_eq_finite_iff, ← h]
  refine ⟨rfl, ?_⟩
  -- the zeros that are left out are factors of both the digits and the power
  rw [← hvalue, hpower]
  conv_rhs => rw [hcount, ← List.append_assoc, Decimal.digitsValue_append_zeros]
  exact (nearestIndex_mul (powerOfTen_pos _) (powerOfTen_pos _)).symm

end Binary64

/-- **A formatted number is read as the rounded number.** -/
theorem NumberStyle.ofText?_format {style : NumberStyle} (hmaximum : style.maximum ≤ 22)
    {x : Binary64} (hx : x.isNegative = false) :
    Binary64.ofText? (style.format x).toList = some (x.roundTo style.maximum) := by
  have hnegative := Binary64.isNegative_roundTo hx style.maximum
  rw [format, String.toList_ofList]
  cases hround : x.roundTo style.maximum with
  | nan =>
    rw [show Binary64.nan.fixedText style.maximum = "NaN" from rfl,
      trimFraction_of_notMem (by decide)]
    decide
  | infinity negative =>
    rw [hround] at hnegative
    obtain rfl : negative = false := hnegative
    rw [show (Binary64.infinity false).fixedText style.maximum = "inf" from rfl,
      trimFraction_of_notMem (by decide)]
    decide
  | finite negative index =>
    rw [hround] at hnegative
    obtain rfl : negative = false := hnegative
    rw [Binary64.fixedText, Binary64.textWith, String.toList_ofList]
    exact Binary64.ofText?_trimFraction hmaximum
      (Binary64.nearestIndex_fixed_of_roundTo hmaximum hround) _

end MessageFormat
