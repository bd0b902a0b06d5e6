import Mathlib.Data.List.TakeWhile
import MessageFormat.Binary64.Reading
import MessageFormat.Function.Number
import MessageFormat.Proofs.Spelling

/-!
# Texts of decimal fractions

The positional text of a decimal fraction has digits before the point and digits behind it.  Taking
needless zeros away changes nothing but the latter, and reading the text gives the fraction back, as
the number nearest to it.

* `Decimal.exists_text_eq` : the digits of a text with a given count of places;
* `trimFraction_join`, `exists_trimZeros_append` : what taking zeros away leaves;
* `Binary64.ofText?_join` : what a text without an exponent is read as;
* `Binary64.exists_ofText?_of_isNumber` : every number literal is read as some number.
-/

namespace MessageFormat

/-! ### Digits -/

theorem isDigit_of_mem_digitsOf {n : Nat} {c : Char} (h : c ∈ Decimal.digitsOf n) :
    isDigit c = true := by
  have hdigit := Nat.isDigit_of_mem_toDigits (by omega) (by omega) h
  rw [Char.isDigit] at hdigit
  rw [isDigit]
  exact hdigit

theorem isDigits_digitsOf (n : Nat) : IsDigits (Decimal.digitsOf n) :=
  ⟨Nat.toDigits_ne_nil, fun _ => isDigit_of_mem_digitsOf⟩

/-- The digits of a natural number do not begin with a needless zero. -/
theorem isWhole_digitsOf (n : Nat) : IsWhole (Decimal.digitsOf n) := by
  have hdigit : ∀ m < 10, m ≠ 0 → Nat.digitChar m ≠ '0' := by decide
  by_cases hn : n = 0
  · subst hn
    exact .inl rfl
  · refine .inr ⟨isDigits_digitsOf n, ?_⟩
    induction n using Nat.strong_induction_on with
    | _ n ih =>
      rw [Decimal.digitsOf, Nat.toDigits_eq_if (by decide)]
      split
      · rename_i hlt
        simpa using hdigit n hlt hn
      · have hfirst := ih (n / 10) (by omega) (by omega)
        obtain ⟨c, rest, hdigits⟩ := List.exists_cons_of_ne_nil (isDigits_digitsOf (n / 10)).1
        rw [hdigits] at hfirst
        rw [show Nat.toDigits 10 (n / 10) = c :: rest from hdigits]
        exact hfirst

namespace Decimal

theorem digitsValue_eq (text : List Char) : digitsValue text = Nat.ofDigitChars 10 text 0 := rfl

theorem digitsValue_digitsOf (n : Nat) : digitsValue (digitsOf n) = n :=
  Nat.ofDigitChars_ten_toDigits

/-- Zeros before the digits of a number do not count. -/
theorem digitsValue_zeros_append (count : Nat) (text : List Char) :
    digitsValue (List.replicate count '0' ++ text) = digitsValue text := by
  rw [digitsValue_eq, Nat.ofDigitChars_append, Nat.ofDigitChars_replicate_zero, Nat.mul_zero]
  rfl

/-- Each zero behind them is a factor of ten. -/
theorem digitsValue_append_zeros (text : List Char) (count : Nat) :
    digitsValue (text ++ List.replicate count '0') = digitsValue text * powerOfTen count := by
  rw [digitsValue_eq, Nat.ofDigitChars_append, Nat.ofDigitChars_replicate_zero, Nat.mul_comm]
  rfl

/-! ### Texts -/

/-- Digits before the point and digits behind it, without the point if there are none behind. -/
def join (whole fraction : List Char) : List Char :=
  whole ++ if fraction.isEmpty then [] else '.' :: fraction

/-- The text of a decimal fraction has as many places behind the point as it counts, and all its
digits together are those of the fraction. -/
theorem exists_text_eq (n places : Nat) : ∃ whole fraction,
    text ⟨n, -places⟩ = join whole fraction ∧ IsDigits whole ∧
      (∀ c ∈ fraction, isDigit c = true) ∧ fraction.length = places ∧
        digitsValue (whole ++ fraction) = n := by
  cases places with
  | zero =>
    refine ⟨digitsOf n, [], ?_, isDigits_digitsOf n, nofun, rfl, ?_⟩
    · rw [join]
      rfl
    · rw [List.append_nil, digitsValue_digitsOf]
  | succ places =>
    generalize hpadded :
      List.replicate (places + 2 - (digitsOf n).length) '0' ++ digitsOf n = padded
    have hlength : places + 2 ≤ padded.length := by
      rw [← hpadded, List.length_append, List.length_replicate]
      omega
    have hdigits : ∀ c ∈ padded, isDigit c = true := by
      intro c hc
      rw [← hpadded, List.mem_append, List.mem_replicate] at hc
      rcases hc with ⟨-, rfl⟩ | hc
      · rfl
      · exact isDigit_of_mem_digitsOf hc
    have hfraction : (padded.drop (padded.length - (places + 1))).length = places + 1 := by
      rw [List.length_drop]
      omega
    refine ⟨padded.take (padded.length - (places + 1)), padded.drop (padded.length - (places + 1)),
      ?_, ⟨?_, ?_⟩, ?_, hfraction, ?_⟩
    · rw [join, if_neg (by rw [List.isEmpty_iff, ← List.length_eq_zero_iff, hfraction]; omega),
        ← hpadded]
      rfl
    · rw [Ne, List.take_eq_nil_iff, ← List.length_eq_zero_iff]
      omega
    · exact fun c hc => hdigits c (List.mem_of_mem_take hc)
    · exact fun c hc => hdigits c (List.mem_of_mem_drop hc)
    · rw [List.take_append_drop, ← hpadded, digitsValue_zeros_append, digitsValue_digitsOf]

end Decimal

/-! ### Zeros at the end -/

theorem ne_point_of_isDigit {c : Char} (h : isDigit c = true) : (c != '.') = true :=
  bne_iff_ne.2 (by rintro rfl; cases h)

/-- A text without a point stays as it is. -/
theorem trimFraction_of_notMem {text : List Char} (h : '.' ∉ text) (minimum : Nat) :
    trimFraction minimum text = text := by
  rw [trimFraction, List.dropWhile_eq_nil_iff.2]
  exact fun c hc => bne_iff_ne.2 fun heq => h (heq ▸ hc)

/-- What stands before the point stays, be it a sign or a digit. -/
theorem trimFraction_cons {c : Char} (h : c ≠ '.') (minimum : Nat) (text : List Char) :
    trimFraction minimum (c :: text) = c :: trimFraction minimum text := by
  have hdrop : (c :: text).dropWhile (· != '.') = text.dropWhile (· != '.') :=
    List.dropWhile_cons_of_pos (bne_iff_ne.2 h)
  have htake : (c :: text).takeWhile (· != '.') = c :: text.takeWhile (· != '.') :=
    List.takeWhile_cons_of_pos (bne_iff_ne.2 h)
  rw [trimFraction, trimFraction, hdrop, htake]
  split <;> rfl

/-- Only the digits behind the point are trimmed. -/
theorem trimFraction_join {whole fraction : List Char} (hwhole : IsDigits whole) (minimum : Nat) :
    trimFraction minimum (Decimal.join whole fraction) =
      Decimal.join whole (trimZeros minimum fraction) := by
  have hpoint : ∀ c ∈ whole, (c != '.') = true := fun c hc => ne_point_of_isDigit (hwhole.2 c hc)
  cases fraction with
  | nil =>
    have hnil : trimZeros minimum [] = [] := by simp [trimZeros]
    rw [hnil, Decimal.join, List.isEmpty_nil, if_pos rfl, List.append_nil]
    exact trimFraction_of_notMem (fun hmem => bne_iff_ne.1 (hpoint _ hmem) rfl) minimum
  | cons c rest =>
    have hsplit : Decimal.join whole (c :: rest) = whole ++ '.' :: c :: rest := rfl
    rw [hsplit, trimFraction, List.dropWhile_append_of_pos hpoint,
      List.takeWhile_append_of_pos hpoint]
    simp [Decimal.join]

/-- What is trimmed away are zeros at the end. -/
theorem exists_trimZeros_append (minimum : Nat) (fraction : List Char) :
    ∃ count, fraction = trimZeros minimum fraction ++ List.replicate count '0' := by
  generalize hrest : (fraction.drop minimum).reverse = rest
  have hzeros : ∀ c ∈ rest.takeWhile (· == '0'), c = '0' := by
    intro c hc
    simpa using List.mem_takeWhile_imp hc
  refine ⟨(rest.takeWhile (· == '0')).length, ?_⟩
  rw [trimZeros, hrest, List.append_assoc, ← List.reverse_replicate,
    ← List.eq_replicate_of_mem hzeros, ← List.reverse_append, List.takeWhile_append_dropWhile,
    ← hrest, List.reverse_reverse, List.take_append_drop]

/-- As many digits are left as there must be. -/
theorem le_length_trimZeros {minimum : Nat} {fraction : List Char}
    (h : minimum ≤ fraction.length) : minimum ≤ (trimZeros minimum fraction).length := by
  rw [trimZeros, List.length_append, List.length_take_of_le h]
  exact Nat.le_add_right _ _

/-- If more are left, then the last one is not a zero. -/
theorem getLast?_trimZeros_ne {minimum : Nat} {fraction : List Char}
    (h : minimum < (trimZeros minimum fraction).length) :
    (trimZeros minimum fraction).getLast? ≠ some '0' := by
  have hfirst := List.head?_dropWhile_not (· == '0') (fraction.drop minimum).reverse
  rw [trimZeros] at h ⊢
  generalize (fraction.drop minimum).reverse.dropWhile (· == '0') = rest at h hfirst ⊢
  cases rest with
  | nil =>
    rw [List.reverse_nil, List.append_nil, List.length_take] at h
    omega
  | cons c rest =>
    rw [List.reverse_cons, ← List.append_assoc, List.getLast?_concat]
    rintro ⟨⟩
    cases hfirst

/-! ### Reading -/

namespace Binary64

open Decimal

variable {whole fraction : List Char}

theorem decimal?_join (hwhole : IsDigits whole) (hfraction : ∀ c ∈ fraction, isDigit c = true)
    (negative : Bool) : decimal? negative (join whole fraction) =
      some (ofScientific negative (digitsValue (whole ++ fraction)) (-fraction.length)) := by
  have hne : whole.isEmpty = false := List.isEmpty_eq_false_iff.2 hwhole.1
  cases fraction with
  | nil =>
    have hsplit : join whole [] = whole := List.append_nil whole
    have htake : whole.takeWhile isDigit = whole := List.takeWhile_eq_self_iff.2 hwhole.2
    have hdrop : whole.dropWhile isDigit = [] := List.dropWhile_eq_nil_iff.2 hwhole.2
    simp [hsplit, decimal?, htake, hdrop, hne, exponent?]
  | cons c rest =>
    have hsplit : join whole (c :: rest) = whole ++ '.' :: c :: rest := rfl
    have htake : (whole ++ '.' :: c :: rest).takeWhile isDigit = whole := by
      rw [List.takeWhile_append_of_pos hwhole.2, List.takeWhile_cons_of_neg (by decide),
        List.append_nil]
    have hdrop : (whole ++ '.' :: c :: rest).dropWhile isDigit = '.' :: c :: rest := by
      rw [List.dropWhile_append_of_pos hwhole.2, List.dropWhile_cons_of_neg (by decide)]
    have htake' : (c :: rest).takeWhile isDigit = c :: rest :=
      List.takeWhile_eq_self_iff.2 hfraction
    have hdrop' : (c :: rest).dropWhile isDigit = [] := List.dropWhile_eq_nil_iff.2 hfraction
    simp [hsplit, decimal?, htake, hdrop, htake', hdrop', hne, exponent?]

/-- A text that begins with a digit is not the name of an infinity or of `nan`. -/
theorem unsigned?_of_isDigit {c : Char} (hc : isDigit c = true) (negative : Bool)
    (rest : List Char) : unsigned? negative (c :: rest) = decimal? negative (c :: rest) := by
  have hnames : (digits.all fun c => c.toLower != 'i' && c.toLower != 'n') = true := by decide
  obtain ⟨hi, hn⟩ : c.toLower ≠ 'i' ∧ c.toLower ≠ 'n' := by
    simpa using List.all_eq_true.1 hnames c (mem_digits hc)
  rw [unsigned?]
  simp [hi, hn]

theorem not_sign_of_isDigit {c : Char} (hc : isDigit c = true) : c ≠ '-' ∧ c ≠ '+' := by
  have hsigns : (digits.all fun c => c != '-' && c != '+') = true := by decide
  simpa using List.all_eq_true.1 hsigns c (mem_digits hc)

/-- It has no sign either. -/
theorem ofText?_of_isDigit {c : Char} (hc : isDigit c = true) (rest : List Char) :
    ofText? (c :: rest) = unsigned? false (c :: rest) := by
  obtain ⟨hminus, hplus⟩ := not_sign_of_isDigit hc
  unfold ofText?
  split
  · rename_i heq
    exact absurd (List.cons.inj heq).1 hminus
  · rename_i heq
    exact absurd (List.cons.inj heq).1 hplus
  · rfl

/-- **A text of digits is read as the number nearest to the decimal fraction**, of its sign. -/
theorem ofText?_join (hwhole : IsDigits whole) (hfraction : ∀ c ∈ fraction, isDigit c = true)
    (negative : Bool) :
    ofText? (if negative then '-' :: join whole fraction else join whole fraction) =
      some (ofScientific negative (digitsValue (whole ++ fraction)) (-fraction.length)) := by
  rw [← decimal?_join hwhole hfraction]
  obtain ⟨c, rest, rfl, hc⟩ := hwhole.beginsWith
  cases negative with
  | false => exact (ofText?_of_isDigit hc _).trans (unsigned?_of_isDigit hc false _)
  | true => exact unsigned?_of_isDigit hc true _

/-! ### Number literals -/

theorem natural?_of_isDigits {text : List Char} (h : IsDigits text) :
    natural? text = some (digitsValue text) := by
  have hall : text.all isDigit = true := List.all_eq_true.2 h.2
  simp [natural?, h.1, hall]

theorem exists_exponent?_of_isExponent {text : List Char} (h : IsExponent text) :
    ∃ exponent, exponent? text = some exponent := by
  rcases h with rfl | ⟨mark, sign, digits, hmark, hsign, hdigits, rfl⟩
  · exact ⟨0, rfl⟩
  · rw [isExponentMark] at hmark
    have hvalue := natural?_of_isDigits hdigits
    rcases hsign with rfl | ⟨c, hc, rfl⟩
    · obtain ⟨c, rest, rfl, hc⟩ := hdigits.beginsWith
      obtain ⟨hminus, hplus⟩ := not_sign_of_isDigit hc
      refine ⟨Int.ofNat (digitsValue (c :: rest)), ?_⟩
      rw [List.nil_append, exponent?, if_pos hmark, hvalue, Option.map_some]
      · exact fun _ heq => hminus (List.cons.inj heq).1
      · exact fun _ heq => hplus (List.cons.inj heq).1
    · rw [isExponentSign, Bool.or_eq_true, beq_iff_eq, beq_iff_eq] at hc
      rcases hc with rfl | rfl
      · refine ⟨Int.ofNat (digitsValue digits), ?_⟩
        rw [List.singleton_append, exponent?, if_pos hmark, hvalue, Option.map_some]
      · refine ⟨-(digitsValue digits : Int), ?_⟩
        rw [List.singleton_append, exponent?, if_pos hmark, hvalue]
        rfl

theorem exists_decimal?_of_isWhole {exponent : List Char} (hwhole : IsWhole whole)
    (hfraction : IsFraction fraction) (hexponent : IsExponent exponent) (negative : Bool) :
    ∃ significand power, decimal? negative (whole ++ (fraction ++ exponent)) =
      some (ofScientific negative significand power) := by
  have hdigits := hwhole.isDigits
  have hne : whole.isEmpty = false := List.isEmpty_eq_false_iff.2 hdigits.1
  have hstop : StopsAt isDigit exponent := by
    rw [← List.append_nil exponent]
    exact hexponent.stopsAt (by decide) stopsAt_nil
  obtain ⟨e, he⟩ := exists_exponent?_of_isExponent hexponent
  rcases hfraction with rfl | ⟨places, hplaces, rfl⟩
  · have hpoint : ∀ rest, exponent ≠ '.' :: rest := by
      rintro rest rfl
      rcases hexponent with hnil | ⟨mark, sign, digits, hmark, -, -, heq⟩
      · cases hnil
      · rw [← (List.cons.inj heq).1] at hmark
        cases hmark
    rw [List.nil_append, decimal?, takeWhile_append_of_stopsAt hdigits.2 hstop,
      dropWhile_append_of_stopsAt hdigits.2 hstop]
    split
    rename_i others rest hsplit
    split at hsplit
    · exact absurd rfl (hpoint _)
    · cases hsplit
      rw [hne, he]
      exact ⟨_, _, rfl⟩
  · have hstop' : StopsAt isDigit ('.' :: places ++ exponent) := stopsAt_cons.2 (by decide)
    rw [decimal?, takeWhile_append_of_stopsAt hdigits.2 hstop',
      dropWhile_append_of_stopsAt hdigits.2 hstop']
    simp only [List.cons_append, takeWhile_append_of_stopsAt hplaces.2 hstop,
      dropWhile_append_of_stopsAt hplaces.2 hstop, hne, he]
    exact ⟨_, _, rfl⟩

theorem ofScientific_ne_nan (negative : Bool) (significand : Nat) (power : Int) :
    ofScientific negative significand power ≠ .nan := by
  have hratio : ∀ num den, ofRatio negative num den ≠ .nan := by
    intro num den
    rw [ofRatio]
    split <;> rintro ⟨⟩
  rw [ofScientific]
  repeat' split
  all_goals first | exact hratio _ _ | rintro ⟨⟩

/-- **A number literal is read as some number.** -/
theorem exists_ofText?_of_isNumber {text : List Char} (h : IsNumber text) :
    ∃ x, ofText? text = some x ∧ x ≠ .nan := by
  obtain ⟨sign, whole, fraction, exponent, hsign, hwhole, hfraction, hexponent, rfl⟩ := h
  obtain ⟨c, rest, hc, hdigit⟩ := hwhole.isDigits.beginsWith
  have hread : ∀ negative, ∃ significand power,
      unsigned? negative (whole ++ (fraction ++ exponent)) =
        some (ofScientific negative significand power) := by
    intro negative
    rw [hc, List.cons_append, unsigned?_of_isDigit hdigit, ← List.cons_append, ← hc]
    exact exists_decimal?_of_isWhole hwhole hfraction hexponent negative
  rw [List.append_assoc, List.append_assoc]
  rcases hsign with rfl | rfl
  · obtain ⟨significand, power, hvalue⟩ := hread false
    refine ⟨_, ?_, ofScientific_ne_nan false significand power⟩
    rw [← hvalue, hc]
    exact ofText?_of_isDigit hdigit _
  · obtain ⟨significand, power, hvalue⟩ := hread true
    exact ⟨_, hvalue, ofScientific_ne_nan true significand power⟩

end Binary64

end MessageFormat
