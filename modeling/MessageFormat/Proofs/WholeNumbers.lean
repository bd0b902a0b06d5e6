import MessageFormat.Proofs.NumericSelection

/-!
# Integers as numbers

The functions for numbers take an integer as the `binary64` number nearest to it.  That is a whole
number again, and it is the integer itself where this is a `binary64` number; so it is up to 2^53 on
either side of zero, but not everywhere beyond.  It is formatted by its own digits, and it matches
the keys that are nearest to the same number.

* `Binary64.exists_units_eq` : the integers up to 2^53 are numbers;
* `Binary64.exists_ofInt_eq` : what an integer is taken as;
* `NumberStyle.format_eq_repr` : a whole number is formatted by its digits;
* `integer_nearest` : what this means for `:integer`.
-/

namespace MessageFormat

namespace Binary64

/-! ### The magnitude nearest to an integer -/

/-- The natural numbers up to 2^53 are magnitudes. -/
theorem exists_units_eq {n : Nat} (h : n ≤ 2 * perBinade) : ∃ k, units k = n * unitsPerOne := by
  by_cases hn : n = 0
  · exact ⟨0, by rw [units_zero, hn, Nat.zero_mul]⟩
  obtain ⟨e, he⟩ := exists_unitsPerOne_eq
  have hbinade : perBinade = 2 ^ 52 := rfl
  have hlog := Nat.log2_self_le hn
  have hlog' : n < 2 ^ (n.log2 + 1) := Nat.lt_log2_self
  generalize n.log2 = l at hlog hlog'
  obtain ⟨s, hs⟩ : ∃ s, s = 52 - l := ⟨_, rfl⟩
  -- doubled as often as it takes, the number lies between 2^52 and 2^53
  have hlow : perBinade ≤ n * 2 ^ s := by
    have hle : 2 ^ 52 ≤ 2 ^ (l + s) := Nat.pow_le_pow_right Nat.two_pos (by omega)
    rw [Nat.pow_add] at hle
    exact hle.trans (Nat.mul_le_mul_right _ hlog)
  have hhigh : n * 2 ^ s ≤ 2 * perBinade := by
    rcases Nat.lt_or_ge 52 l with hlt | hge
    · rwa [hs, Nat.sub_eq_zero_of_le (Nat.le_of_lt hlt), Nat.pow_zero, Nat.mul_one]
    · have hsum : l + 1 + s = 52 + 1 := by omega
      have hle := Nat.mul_le_mul_right (2 ^ s) (Nat.le_of_lt hlog')
      rwa [← Nat.pow_add, hsum, Nat.pow_succ', ← hbinade] at hle
  refine ⟨(e + (52 - s)) * perBinade + n * 2 ^ s, ?_⟩
  have hsum : s + (e + (52 - s)) = e + 52 := by omega
  rw [units_run hhigh fun _ => hlow, Nat.mul_assoc, ← Nat.pow_add, hsum, he]

/-- The magnitude nearest to a natural number is a natural number. -/
theorem unitsPerOne_dvd_of_isNearest {n k : Nat} (h : IsNearest n 1 k) :
    unitsPerOne ∣ units k := by
  rcases Nat.lt_or_ge (2 * perBinade) n with hlt | hge
  · obtain ⟨e, he⟩ := exists_unitsPerOne_eq
    obtain ⟨step, q, rfl, hq, hrun⟩ := exists_run k
    have hle : unitsPerOne ≤ 2 ^ step := by
      -- otherwise the magnitude would be less than 2^53
      refine Nat.le_of_not_lt fun hstep => ?_
      have habove := h.le_above
      rw [Nat.add_assoc, units_run (Nat.le_of_lt hq) hrun, units_run hq (by omega)] at habove
      have hgap := Nat.mul_lt_mul_of_pos_right hlt unitsPerOne_pos
      have hnext := Nat.mul_le_mul (Nat.succ_le_of_lt hq) (Nat.le_of_lt hstep)
      linarith [Nat.two_pow_pos step]
    rw [units_run (Nat.le_of_lt hq) hrun]
    rw [he] at hle ⊢
    exact Dvd.dvd.mul_left (Nat.pow_dvd_pow 2 ((Nat.pow_le_pow_iff_right (by omega)).1 hle)) q
  · obtain ⟨k', hk'⟩ := exists_units_eq hge
    obtain rfl : k' = k := (isNearest_of_eq Nat.one_pos (by rw [hk', Nat.one_mul])).unique
      Nat.one_pos h
    exact ⟨n, hk'.trans (Nat.mul_comm n _)⟩

/-- No natural number that is a magnitude is nearer. -/
theorem IsNearest.natAbs_sub_le {n k v j w : Nat} (h : IsNearest n 1 k)
    (hv : units k = v * unitsPerOne) (hw : units j = w * unitsPerOne) :
    ((n : Int) - v).natAbs ≤ ((n : Int) - w).natAbs := by
  have hpos := unitsPerOne_pos
  rcases Nat.lt_trichotomy j k with hlt | rfl | hgt
  · obtain ⟨i, rfl⟩ : ∃ i, k = i + 1 := Nat.exists_eq_succ_of_ne_zero (Nat.ne_zero_of_lt hlt)
    have hle := units_le_units (Nat.le_of_lt_succ hlt)
    have hunits := units_lt_units hlt
    have hbelow := h.below_le i rfl
    rw [hw, hv] at hunits
    have hless : w < v := Nat.lt_of_mul_lt_mul_right hunits
    have hsum : w + v ≤ 2 * n := Nat.le_of_mul_le_mul_right (by linarith) hpos
    omega
  · have hsame : v = w := Nat.eq_of_mul_eq_mul_right hpos (hv.symm.trans hw)
    rw [hsame]
  · have hle := units_le_units (Nat.succ_le_of_lt hgt)
    have hunits := units_lt_units hgt
    have habove := h.le_above
    rw [hw, hv] at hunits
    have hless : v < w := Nat.lt_of_mul_lt_mul_right hunits
    have hsum : 2 * n ≤ v + w := Nat.le_of_mul_le_mul_right (by linarith) hpos
    omega

/-- The magnitude nearest to an integer of 64 bits is finite. -/
theorem nearestIndex_lt_finiteCount {n : Nat} (h : n < 2 ^ 64) :
    nearestIndex n 1 < finiteCount := by
  have hgreatest : 2 ^ 64 * unitsPerOne < units (finiteCount - 1) := by decide
  refine nearestIndex_lt_of_mul_le Nat.one_pos ?_
  rw [Nat.one_mul]
  exact (Nat.mul_le_mul_right _ (Nat.le_of_lt h)).trans (Nat.le_of_lt hgreatest)

/-! ### The number nearest to an integer -/

/-- An integer of 64 bits is taken as a finite number which is whole. -/
theorem exists_ofInt_eq {n : Int} (h : n.natAbs < 2 ^ 64) :
    ∃ index v, ofInt n = .finite (n < 0) index ∧ units index = v * unitsPerOne ∧
      IsNearest n.natAbs 1 index := by
  have hnearest : IsNearest n.natAbs 1 (nearestIndex n.natAbs 1) :=
    isNearest_nearestIndex Nat.one_pos
  obtain ⟨v, hv⟩ := unitsPerOne_dvd_of_isNearest hnearest
  have hfinite := nearestIndex_lt_finiteCount h
  exact ⟨⟨_, hfinite⟩, v, dif_pos hfinite, hv.trans (Nat.mul_comm _ v), hnearest⟩

variable {negative : Bool} {index : Fin finiteCount} {v : Nat}

theorem toInt?_finite (h : units index = v * unitsPerOne) :
    (finite negative index).toInt? = some (if negative then -(v : Int) else v) := by
  rw [toInt?, h, Nat.mul_mod_left, Nat.mul_div_cancel _ unitsPerOne_pos, if_pos rfl]

theorem exists_of_toInt? {x : Binary64} {w : Int} (h : x.toInt? = some w) :
    ∃ negative index v, x = .finite negative index ∧ units index = v * unitsPerOne ∧
      w = if negative then -(v : Int) else v := by
  cases x with
  | nan | infinity => cases h
  | finite negative index =>
    have hdvd : unitsPerOne ∣ units index := by
      rw [toInt?] at h
      split at h
      · exact Nat.dvd_of_mod_eq_zero ‹_›
      · cases h
    obtain ⟨v, hv⟩ := hdvd
    rw [Nat.mul_comm] at hv
    rw [toInt?_finite hv] at h
    exact ⟨negative, index, v, rfl, hv, (Option.some.inj h).symm⟩

/-- No integer that is a number is nearer. -/
theorem natAbs_sub_le_of_toInt? {n : Int} (h : n.natAbs < 2 ^ 64) {m w : Int} {x : Binary64}
    (hm : (ofInt n).toInt? = some m) (hw : x.toInt? = some w) :
    (n - m).natAbs ≤ (n - w).natAbs := by
  obtain ⟨index, v, hofInt, hv, hnearest⟩ := exists_ofInt_eq h
  obtain ⟨negative, index', v', rfl, hv', rfl⟩ := exists_of_toInt? hw
  rw [hofInt, toInt?_finite hv, Option.some_inj] at hm
  have hle := hnearest.natAbs_sub_le hv hv'
  simp only [decide_eq_true_eq] at hm
  cases negative <;> split at hm <;> simp only [Bool.false_eq_true, if_true, if_false] <;> omega

/-- Up to 2^53 on either side of zero, an integer is taken as itself. -/
theorem toInt?_ofInt_of_le {n : Int} (h : n.natAbs ≤ 2 ^ 53) : (ofInt n).toInt? = some n := by
  obtain ⟨index, v, hofInt, hv, hnearest⟩ := exists_ofInt_eq (Nat.lt_of_le_of_lt h (by decide))
  obtain ⟨k, hk⟩ := exists_units_eq h
  have hle := hnearest.natAbs_sub_le hv hk
  rw [hofInt, toInt?_finite hv, Option.some_inj]
  simp only [decide_eq_true_eq]
  split <;> omega

/-- Equal numbers have the same value. -/
theorem toInt?_eq_of_beq {x y : Binary64} (h : (x == y) = true) : x.toInt? = y.toInt? := by
  cases x with
  | nan => cases h
  | infinity => cases y <;> first | rfl | cases h
  | finite negative index =>
    cases y with
    | nan | infinity => cases h
    | finite sign other =>
      have hsplit : (index == other && (negative == sign || index.val == 0)) = true := h
      simp only [Bool.and_eq_true, Bool.or_eq_true, beq_iff_eq] at hsplit
      obtain ⟨rfl, rfl | hzero⟩ := hsplit
      · rfl
      · -- the two zeros
        have hunits : units index = 0 * unitsPerOne := by
          rw [hzero, units_zero, Nat.zero_mul]
        rw [toInt?_finite hunits, toInt?_finite hunits]
        cases negative <;> cases sign <;> rfl

/-- Just one integer is taken as a number whose magnitude is less than 2^53. -/
theorem eq_of_ofInt_beq {m n : Int} (hm : m.natAbs < 2 ^ 64) (hn : n.natAbs < 2 ^ 53)
    (h : (ofInt m == ofInt n) = true) : m = n := by
  have hvalue : (ofInt m).toInt? = some n :=
    (toInt?_eq_of_beq h).trans (toInt?_ofInt_of_le (Nat.le_of_lt hn))
  rcases Nat.lt_or_ge (2 ^ 53) m.natAbs with hlt | hge
  · -- 2^53 would be nearer, or its negative
    have habove := natAbs_sub_le_of_toInt? hm hvalue (toInt?_ofInt_of_le (n := 2 ^ 53) (by decide))
    have hbelow := natAbs_sub_le_of_toInt? hm hvalue
      (toInt?_ofInt_of_le (n := -2 ^ 53) (by decide))
    omega
  · rw [toInt?_ofInt_of_le hge] at hvalue
    exact Option.some.inj hvalue

/-! ### Rounding -/

/-- A whole number is rounded to itself; a zero loses its sign. -/
theorem roundTo_zero_finite (h : units index = v * unitsPerOne) :
    (finite negative index).roundTo 0 = .finite (negative && v != 0) index := by
  have hproduct : units index * powerOfTen 0 * unitsPerOne = unitsPerOne * units index := by
    rw [powerOfTen_zero, Nat.mul_one, Nat.mul_comm]
  have hscaled : ofRatio negative (units index * powerOfTen 0) unitsPerOne =
      .finite negative index :=
    ofRatio_eq_finite_iff.2
      ⟨rfl, (nearestIndex_eq_iff unitsPerOne_pos).2 (isNearest_of_eq unitsPerOne_pos hproduct)⟩
  rw [roundTo_finite, hscaled, roundProduct_finite, h, roundDiv_mul _ _ unitsPerOne_pos,
    ofRatio_eq_finite_iff, nearestIndex_eq_iff (powerOfTen_pos 0)]
  refine ⟨rfl, isNearest_of_eq (powerOfTen_pos 0) ?_⟩
  rw [h, powerOfTen_zero, Nat.one_mul]

/-- Nothing is equal to a rounded whole number but what is equal to the number itself. -/
theorem beq_roundTo_zero {x : Binary64} {w : Int} (h : x.toInt? = some w) (y : Binary64) :
    (y == x.roundTo 0) = (y == x) := by
  obtain ⟨negative, index, v, rfl, hv, -⟩ := exists_of_toInt? h
  rw [roundTo_zero_finite hv]
  by_cases hzero : v = 0
  · have hindex : index = ⟨0, by decide⟩ := by
      refine Fin.ext (Decidable.byContradiction fun hne => ?_)
      have hpositive := units_lt_units (Nat.pos_of_ne_zero hne)
      rw [hv, hzero, Nat.zero_mul] at hpositive
      exact absurd hpositive (Nat.not_lt_zero _)
    subst hindex
    exact (beq_withSign_zero y _).trans (beq_withSign_zero y negative).symm
  · rw [bne_iff_ne.2 hzero, Bool.and_true]

end Binary64

/-! ### The digits of an integer -/

open Decimal

theorem repr_eq_ofList {negative : Bool} {n : Nat} (h : negative = true → n ≠ 0) :
    (if negative then -(n : Int) else n).repr =
      String.ofList (if negative then '-' :: digitsOf n else digitsOf n) := by
  cases negative with
  | false => rfl
  | true =>
    obtain ⟨m, rfl⟩ := Nat.exists_eq_succ_of_ne_zero (h rfl)
    rw [if_pos rfl, if_pos rfl, String.ofList_cons]
    rfl

theorem repr_eq_ofList_natAbs (n : Int) :
    n.repr = String.ofList (if decide (n < 0) then '-' :: digitsOf n.natAbs
      else digitsOf n.natAbs) := by
  rw [← repr_eq_ofList fun h => by have := of_decide_eq_true h; omega]
  congr 1
  simp only [decide_eq_true_eq]
  split <;> omega

/-- The digits of an integer are a number literal. -/
theorem isNumberLiteral_repr (n : Int) : isNumberLiteral n.repr = true := by
  rw [repr_eq_ofList_natAbs, Scanner.isNumberLiteral_iff]
  refine ⟨if decide (n < 0) then ['-'] else [], digitsOf n.natAbs, [], [], ?_,
    isWhole_digitsOf n.natAbs, .inl rfl, .inl rfl, ?_⟩
  · split
    · exact .inr rfl
    · exact .inl rfl
  · split <;> simp

/-- The digits of an integer are read as the number nearest to it. -/
theorem ofText?_repr (n : Int) : Binary64.ofText? n.repr.toList = some (.ofInt n) := by
  have hfraction : ∀ c ∈ ([] : List Char), isDigit c = true := nofun
  have hread := Binary64.ofText?_join (isDigits_digitsOf n.natAbs) hfraction (decide (n < 0))
  have hjoin : join (digitsOf n.natAbs) [] = digitsOf n.natAbs := List.append_nil _
  rw [hjoin, List.append_nil, digitsValue_digitsOf] at hread
  rw [repr_eq_ofList_natAbs, String.toList_ofList, hread]
  exact congrArg some (Binary64.ofScientific_neg (Nat.zero_le 22) _ _)

/-- A whole number without places behind the point is formatted by its digits. -/
theorem NumberStyle.format_eq_repr {style : NumberStyle} (hmaximum : style.maximum = 0)
    {x : Binary64} {n : Int} (h : x.toInt? = some n) : style.format x = n.repr := by
  obtain ⟨negative, index, v, rfl, hv, rfl⟩ := Binary64.exists_of_toInt? h
  have hfixed : (Binary64.fixed index 0).text = digitsOf v := by
    rw [Binary64.fixed, hv, powerOfTen_zero, Nat.mul_one,
      roundDiv_mul _ _ Binary64.unitsPerOne_pos]
    exact List.append_nil _
  have hpoint : '.' ∉ if (negative && v != 0) then '-' :: digitsOf v else digitsOf v := by
    intro hmem
    have hdigits : '.' ∉ digitsOf v := fun hdigit => by
      have := isDigit_of_mem_digitsOf hdigit
      cases this
    split at hmem
    · rcases List.mem_cons.1 hmem with heq | hmem
      · cases heq
      · exact hdigits hmem
    · exact hdigits hmem
  have hrepr : (if negative then -(v : Int) else v).repr =
      String.ofList (if (negative && v != 0) then '-' :: digitsOf v else digitsOf v) := by
    rw [← repr_eq_ofList fun h => bne_iff_ne.1 (Bool.and_eq_true_iff.1 h).2]
    by_cases hzero : v = 0
    · subst hzero
      cases negative <;> rfl
    · rw [bne_iff_ne.2 hzero, Bool.and_true]
  rw [hrepr, format, hmaximum, Binary64.roundTo_zero_finite hv, Binary64.fixedText,
    Binary64.textWith, hfixed, String.toList_ofList, trimFraction_of_notMem hpoint]

/-! ### The function for integers -/

theorem natAbs_toInt_lt (n : Int64) : n.toInt.natAbs < 2 ^ 64 := by
  have := n.toInt_lt
  have := n.le_toInt
  omega

namespace NumberFunction

theorem operand?_int (n : Int64) : operand? (.int n) = some (.ofInt n.toInt) := by
  obtain ⟨index, v, hofInt, -⟩ := Binary64.exists_ofInt_eq (natAbs_toInt_lt n)
  rw [operand?, Value.toNumber?, hofInt]
  rfl

/-- The style of `:integer` without options. -/
def integerStyle : NumberStyle := ⟨0, 0, .plural .cardinal⟩

theorem readStyle_integer : integer.readStyle .empty = .ok integerStyle := rfl

/-- Without options, an integer is formatted by the digits of the number that it is taken as. -/
theorem format_int {n : Int64} {v : Int} (h : (Binary64.ofInt n.toInt).toInt? = some v) :
    integer.format (some (.int n)) .empty = .ok (.string v.repr) := by
  have hmaximum : integerStyle.maximum = 0 := rfl
  rw [format, Option.bind_some, operand?_int, readStyle_integer,
    ← NumberStyle.format_eq_repr hmaximum h]
  rfl

theorem isKeyOf_repr (x : Binary64) (k : Int) : isKeyOf x k.repr = (.ofInt k == x) := by
  rw [isKeyOf, isNumberLiteral_repr, ofText?_repr, Bool.true_and, Option.any_some]

/-- Without options, an integer matches the integers that are taken as the same number. -/
theorem select_int {n : Int64} {v : Int} (h : (Binary64.ofInt n.toInt).toInt? = some v)
    (plurals : PluralLibrary) (keys : List Int64) (locale : Locale) :
    integer.select plurals (.int n) .empty (keys.map fun k => (Value.int k).text) locale =
      .ok ((keys.filter fun k => Binary64.ofInt k.toInt == Binary64.ofInt n.toInt).map
        fun k => (Value.int k).text) := by
  have hliterals : ∀ key ∈ keys.map fun k => (Value.int k).text, isNumberLiteral key = true := by
    intro key hkey
    obtain ⟨k, -, rfl⟩ := List.mem_map.1 hkey
    exact isNumberLiteral_repr k.toInt
  have hmaximum : integerStyle.maximum = 0 := rfl
  have hkey : ∀ k : Int64,
      isKeyOf ((Binary64.ofInt n.toInt).roundTo 0) (Value.int k).text =
        (Binary64.ofInt k.toInt == Binary64.ofInt n.toInt) := by
    intro k
    rw [show (Value.int k).text = k.toInt.repr from rfl, isKeyOf_repr, Binary64.beq_roundTo_zero h]
  rw [select_of_literals (operand?_int n) readStyle_integer hliterals, hmaximum, List.filter_map]
  simp only [Function.comp_def, hkey]

/-- Where no other key is taken as the same number, an integer matches its own key alone. -/
theorem select_int_of_forall {n : Int64} {v : Int}
    (h : (Binary64.ofInt n.toInt).toInt? = some v) {keys : List Int64} (hnodup : keys.Nodup)
    (hkeys : ∀ k ∈ keys, (Binary64.ofInt k.toInt == Binary64.ofInt n.toInt) = true → k = n)
    (plurals : PluralLibrary) (locale : Locale) :
    integer.select plurals (.int n) .empty (keys.map fun k => (Value.int k).text) locale =
      .ok (if n ∈ keys then [(Value.int n).text] else []) := by
  have hself : (Binary64.ofInt n.toInt == Binary64.ofInt n.toInt) = true := by
    obtain ⟨negative, index, -, hfinite, -⟩ := Binary64.exists_of_toInt? h
    rw [hfinite]
    change (index == index && (negative == negative || _)) = true
    rw [beq_self_eq_true, beq_self_eq_true, Bool.true_or, Bool.true_and]
  have hfilter : (keys.filter fun k => Binary64.ofInt k.toInt == Binary64.ofInt n.toInt) =
      keys.filter (· == n) := by
    refine List.filter_congr fun k hk => Bool.eq_iff_iff.2 ⟨fun heq => ?_, fun heq => ?_⟩
    · exact beq_iff_eq.2 (hkeys k hk heq)
    · rwa [beq_iff_eq.1 heq]
  rw [select_int h plurals, hfilter, List.filter_beq, hnodup.count]
  split <;> rfl

end NumberFunction

/-- **An integer is taken as the nearest number.**  Without options, `:integer` formats an integer
of 64 bits by the digits of the number that it is taken as: no integer that is a `binary64` number
is nearer to it, and up to 2^53 on either side of zero it is the integer itself.  Of keys that are
integers of 64 bits, it matches those that are taken as the same number; where there is no other one
among them, and so for an integer whose magnitude is less than 2^53, this is its own key alone if it
is there. -/
theorem integer_nearest (n : Int64) :
    ∃ v : Int, (Binary64.ofInt n.toInt).toInt? = some v ∧
      (∀ x w, Binary64.toInt? x = some w → (n.toInt - v).natAbs ≤ (n.toInt - w).natAbs) ∧
      (n.toInt.natAbs ≤ 2 ^ 53 → v = n.toInt) ∧
      NumberFunction.integer.format (some (.int n)) .empty = .ok (.string v.repr) ∧
      ∀ (plurals : PluralLibrary) (keys : List Int64) (locale : Locale),
        NumberFunction.integer.select plurals (.int n) .empty
            (keys.map fun k => (Value.int k).text) locale =
          .ok ((keys.filter fun k => Binary64.ofInt k.toInt == Binary64.ofInt n.toInt).map
            fun k => (Value.int k).text) ∧
        (keys.Nodup →
          (n.toInt.natAbs < 2 ^ 53 ∨ ∀ k ∈ keys,
            (Binary64.ofInt k.toInt == Binary64.ofInt n.toInt) = true → k = n) →
          NumberFunction.integer.select plurals (.int n) .empty
              (keys.map fun k => (Value.int k).text) locale =
            .ok (if n ∈ keys then [(Value.int n).text] else [])) := by
  obtain ⟨index, w, hofInt, hw, -⟩ := Binary64.exists_ofInt_eq (natAbs_toInt_lt n)
  obtain ⟨v, hv⟩ : ∃ v, (Binary64.ofInt n.toInt).toInt? = some v :=
    ⟨_, hofInt ▸ Binary64.toInt?_finite hw⟩
  refine ⟨v, hv, fun x w => Binary64.natAbs_sub_le_of_toInt? (natAbs_toInt_lt n) hv, fun hn => ?_,
    NumberFunction.format_int hv, fun plurals keys locale =>
      ⟨NumberFunction.select_int hv plurals keys locale, fun hnodup hkeys => ?_⟩⟩
  · rw [Binary64.toInt?_ofInt_of_le hn] at hv
    exact (Option.some.inj hv).symm
  · refine NumberFunction.select_int_of_forall hv hnodup (fun k hk heq => ?_) plurals locale
    rcases hkeys with hsmall | hkeys
    · exact Int64.toInt_inj.1 (Binary64.eq_of_ofInt_beq (natAbs_toInt_lt k) hsmall heq)
    · exact hkeys k hk heq

/-- An integer, formatted and matched. -/
theorem integer_nearest_seven :
    NumberFunction.integer.format (some (.int (-7))) .empty = .ok (.string "-7") ∧
      NumberFunction.integer.select .builtIn (.int (-7)) .empty ["7", "-7"] .default = .ok ["-7"] := by
  obtain ⟨v, -, -, hexact, hformat, hselect⟩ := integer_nearest (-7)
  rw [hexact (by decide)] at hformat
  exact ⟨hformat, (hselect .builtIn [7, -7] .default).2 (by decide) (.inl (by decide))⟩

/-- The integer 2^53 + 1 is no `binary64` number: it is formatted as 2^53, and matches that too. -/
theorem integer_not_exact :
    NumberFunction.integer.format (some (.int 9007199254740993)) .empty ≠
        .ok (.string (Value.int 9007199254740993).text) ∧
      NumberFunction.integer.select .builtIn (.int 9007199254740993) .empty
          ["9007199254740992", "9007199254740993"] .default ≠
        .ok [(Value.int 9007199254740993).text] := by
  have hformat : (NumberFunction.integer.format (some (.int 9007199254740993)) .empty).toOption.map
      Value.text = some "9007199254740992" := by decide +kernel
  have hselect : (NumberFunction.integer.select .builtIn (.int 9007199254740993) .empty
      ["9007199254740992", "9007199254740993"] .default).toOption =
        some ["9007199254740992", "9007199254740993"] := by decide +kernel
  constructor
  · intro h
    rw [h] at hformat
    revert hformat
    decide +kernel
  · intro h
    rw [h] at hselect
    revert hselect
    decide +kernel

end MessageFormat
