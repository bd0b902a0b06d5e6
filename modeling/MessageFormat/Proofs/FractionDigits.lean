import MessageFormat.Proofs.NumericSelection

/-!
# Digits behind the point

What `:number` makes of its options and of a finite number.  Either its options are acceptable, and
then the rounded number is written with the greatest count of digits behind the point and loses
nothing but zeros at its end, down to the least count; or the options are refused.

* `NumberFunction.readStyle_cases` : which options are acceptable, and what they ask for;
* `NumberText.exists_fixedText_eq` : the text of a finite number has an integer part and as many
  digits behind the point as it is written with;
* `NumberText.trims_trimmed` : what is taken away from a text, and what is left;
* `number_fraction_digits` : what `:number` returns.
-/

namespace MessageFormat

/-! ### Acceptable options -/

/-- The value is a whole number, and one that a count of digits may be. -/
def Value.IsDigitCount (value : Value) (count : Nat) : Prop :=
  count ≤ 20 ∧ ∃ x, value.toNumber? = some x ∧ x.toInt? = some (count : Int)

/-- The option of the given name asks for a count of digits: it is that count, or it is absent and
the count is the one that is taken then. -/
def AsksFor (options : Options) (name : String) (missing count : Nat) : Prop :=
  match options.find? name with
  | none => count = missing
  | some value => value.IsDigitCount count

/-- The counts of digits of a style are those that the options ask for, the greatest one raised to
the least one. -/
structure NumberStyle.AskedBy (style : NumberStyle) (options : Options) : Prop where
  /-- The least count is asked for. -/
  minimum : AsksFor options "minimumFractionDigits" 0 style.minimum
  /-- The greatest count is asked for, unless the least one is greater. -/
  maximum : ∃ count, AsksFor options "maximumFractionDigits" 3 count ∧
    style.maximum = max count style.minimum

/-- The texts that say how keys are matched. -/
def matchingTexts : List String := ["plural", "ordinal", "exact"]

/-- What the options of `:number` must be. -/
structure Acceptable (options : Options) : Prop where
  /-- How keys are matched is said by one of three texts, or not at all. -/
  select : ∀ value, options.find? "select" = some value → value.text ∈ matchingTexts
  /-- A least count of digits is asked for, or none. -/
  minimum : ∃ count, AsksFor options "minimumFractionDigits" 0 count
  /-- A greatest count of digits is asked for, or none. -/
  maximum : ∃ count, AsksFor options "maximumFractionDigits" 3 count

namespace NumberFunction

variable {α β : Type} {function : NumberFunction} {options : Options}

/-- An option is refused. -/
def Refuses (function : NumberFunction) (result : Except Error α) : Prop :=
  ∃ description, result = .error (.ofCause (.badOption function.name description))

/-- There is a result, or an option is refused. -/
def Answers (function : NumberFunction) (result : Except Error α) : Prop :=
  (∃ a, result = .ok a) ∨ function.Refuses result

theorem Refuses.bind {result : Except Error α} (h : function.Refuses result)
    (f : α → Except Error β) : function.Refuses (result >>= f) := by
  obtain ⟨description, rfl⟩ := h
  exact ⟨description, rfl⟩

theorem Answers.bind {result : Except Error α} {f : α → Except Error β}
    (h : function.Answers result) (hf : ∀ a, function.Answers (f a)) :
    function.Answers (result >>= f) := by
  rcases h with ⟨a, rfl⟩ | hrefuses
  · exact hf a
  · exact .inr (hrefuses.bind f)

/-- A count of digits is read exactly if it is asked for. -/
theorem readDigits_eq_ok_iff {name : String} {missing count : Nat} :
    function.readDigits options name missing = .ok count ↔
      AsksFor options name missing count := by
  unfold readDigits AsksFor Value.IsDigitCount
  cases options.find? name with
  | none => simp [eq_comm]
  | some value =>
    dsimp only
    cases value.toNumber? with
    | none => simp [readDigits.refused]
    | some x =>
      cases hx : x.toInt? with
      | none => simp [readDigits.refused, hx]
      | some number =>
        have hlimit : (maximumDigits : Int) = 20 := rfl
        simp only [Option.bind_some, hx, Option.some.injEq, exists_eq_left']
        split
        · rw [Except.ok.injEq]
          omega
        · simp only [readDigits.refused, reduceCtorEq, false_iff]
          omega

theorem answers_readDigits (name : String) (missing : Nat) :
    function.Answers (function.readDigits options name missing) := by
  unfold readDigits
  split
  · exact .inl ⟨missing, rfl⟩
  · split
    · split
      · exact .inl ⟨_, rfl⟩
      · exact .inr ⟨_, rfl⟩
    · exact .inr ⟨_, rfl⟩

theorem answers_readMatching : function.Answers (function.readMatching options) := by
  unfold readMatching
  split <;> first | exact .inl ⟨_, rfl⟩ | exact .inr ⟨_, rfl⟩

theorem exists_readMatching_iff : (∃ matching, function.readMatching options = .ok matching) ↔
    ∀ value, options.find? "select" = some value → value.text ∈ matchingTexts := by
  unfold readMatching matchingTexts
  cases options.find? "select" with
  | none => simp
  | some value =>
    simp only [Option.map_some, Option.some.injEq, forall_eq']
    split <;> simp_all

/-- The style that is made has the counts of digits that the options ask for. -/
theorem readStyle_eq_ok_iff {style : NumberStyle} : number.readStyle options = .ok style ↔
    number.readMatching options = .ok style.matching ∧ style.AskedBy options := by
  constructor
  · intro h
    obtain ⟨matching, hmatching, h⟩ := bind_eq_ok_iff.1 h
    obtain ⟨minimum, hminimum, h⟩ := bind_eq_ok_iff.1 h
    obtain ⟨maximum, hmaximum, h⟩ := bind_eq_ok_iff.1 h
    cases h
    exact ⟨hmatching, readDigits_eq_ok_iff.1 hminimum, maximum, readDigits_eq_ok_iff.1 hmaximum,
      rfl⟩
  · rintro ⟨hmatching, hminimum, maximum, hmaximum, hraised⟩
    refine bind_eq_ok_iff.2 ⟨style.matching, hmatching, ?_⟩
    refine bind_eq_ok_iff.2 ⟨style.minimum, readDigits_eq_ok_iff.2 hminimum, ?_⟩
    refine bind_eq_ok_iff.2 ⟨maximum, readDigits_eq_ok_iff.2 hmaximum, ?_⟩
    rw [← hraised]
    rfl

/-- A style is made if the options are acceptable. -/
theorem exists_readStyle_iff :
    (∃ style, number.readStyle options = .ok style) ↔ Acceptable options := by
  constructor
  · rintro ⟨style, h⟩
    obtain ⟨hmatching, hminimum, maximum, hmaximum, -⟩ := readStyle_eq_ok_iff.1 h
    exact ⟨exists_readMatching_iff.1 ⟨_, hmatching⟩, ⟨_, hminimum⟩, ⟨maximum, hmaximum⟩⟩
  · rintro ⟨hselect, ⟨minimum, hminimum⟩, ⟨maximum, hmaximum⟩⟩
    obtain ⟨matching, hmatching⟩ := exists_readMatching_iff.2 hselect
    exact ⟨⟨minimum, max maximum minimum, matching⟩,
      readStyle_eq_ok_iff.2 ⟨hmatching, hminimum, maximum, hmaximum, rfl⟩⟩

/-- Otherwise, one of them is refused. -/
theorem refuses_readStyle (h : ¬ Acceptable options) :
    number.Refuses (number.readStyle options) := by
  have hanswers : number.Answers (number.readStyle options) :=
    answers_readMatching.bind fun _ => (answers_readDigits _ _).bind fun _ =>
      (answers_readDigits _ _).bind fun _ => .inl ⟨_, rfl⟩
  exact hanswers.resolve_left fun hstyle => h (exists_readStyle_iff.1 hstyle)

end NumberFunction

/-! ### Texts of numbers -/

theorem Decimal.exists_getLast?_join {whole : List Char} (hwhole : IsDigits whole)
    (fraction : List Char) :
    ∃ c ∈ whole ++ fraction, (join whole fraction).getLast? = some c := by
  cases fraction with
  | nil =>
    have hjoin : join whole [] = whole := List.append_nil whole
    rw [hjoin, List.append_nil]
    exact ⟨_, List.getLast_mem hwhole.1, List.getLast?_eq_some_getLast hwhole.1⟩
  | cons c rest =>
    have hne : c :: rest ≠ [] := List.cons_ne_nil c rest
    have hjoin : join whole (c :: rest) = whole ++ ['.'] ++ c :: rest :=
      (List.append_assoc whole ['.'] (c :: rest)).symm
    refine ⟨_, List.mem_append_right _ (List.getLast_mem hne), ?_⟩
    rw [hjoin, List.getLast?_append, List.getLast?_eq_some_getLast hne]
    rfl

/-- The text of a decimal number in its parts. -/
structure NumberText where
  /-- Whether there is a minus sign. -/
  negative : Bool
  /-- The digits before the point. -/
  whole : List Char
  /-- The digits behind the point. -/
  fraction : List Char
  /-- There is a digit before the point. -/
  isDigits_whole : IsDigits whole
  /-- There are only digits behind the point. -/
  isDigit_fraction : ∀ c ∈ fraction, isDigit c = true

namespace NumberText

/-- The text; there is a point only if there are digits behind it. -/
def text (t : NumberText) : String :=
  let digits := Decimal.join t.whole t.fraction
  String.ofList (if t.negative then '-' :: digits else digits)

/-- The text does not end in a point. -/
theorem getLast?_text_ne (t : NumberText) : t.text.toList.getLast? ≠ some '.' := by
  obtain ⟨c, hc, hlast⟩ := Decimal.exists_getLast?_join t.isDigits_whole t.fraction
  have hdigit : isDigit c = true :=
    (List.mem_append.1 hc).elim (t.isDigits_whole.2 c) (t.isDigit_fraction c)
  have htext : t.text.toList.getLast? = some c := by
    rw [text, String.toList_ofList]
    by_cases hnegative : t.negative = true
    · rw [if_pos hnegative, List.getLast?_cons, hlast]
      rfl
    · rw [if_neg hnegative, hlast]
  rw [htext]
  rintro ⟨⟩
  cases hdigit

/-- A text is what is left of another one when it is trimmed to no less than the least count of
digits behind the point. -/
structure Trims (minimum : Nat) (printed kept : NumberText) : Prop where
  /-- The sign is left. -/
  negative_eq : kept.negative = printed.negative
  /-- The digits before the point are left. -/
  whole_eq : kept.whole = printed.whole
  /-- Behind the point, zeros at the end are taken away. -/
  exists_fraction_eq : ∃ count, printed.fraction = kept.fraction ++ List.replicate count '0'
  /-- The least count of digits is left. -/
  minimum_le : minimum ≤ kept.fraction.length
  /-- If more are left, then the last one is not a zero. -/
  getLast?_ne : minimum < kept.fraction.length → kept.fraction.getLast? ≠ some '0'

/-- There are no more digits behind the point than before. -/
theorem Trims.length_le {minimum : Nat} {printed kept : NumberText}
    (h : Trims minimum printed kept) : kept.fraction.length ≤ printed.fraction.length := by
  obtain ⟨count, hfraction⟩ := h.exists_fraction_eq
  rw [hfraction, List.length_append]
  exact Nat.le_add_right _ _

/-- The text without needless zeros. -/
def trimmed (minimum : Nat) (t : NumberText) : NumberText where
  negative := t.negative
  whole := t.whole
  fraction := trimZeros minimum t.fraction
  isDigits_whole := t.isDigits_whole
  isDigit_fraction c hc := by
    obtain ⟨count, hfraction⟩ := exists_trimZeros_append minimum t.fraction
    exact t.isDigit_fraction c (hfraction ▸ List.mem_append_left _ hc)

theorem trims_trimmed {minimum : Nat} {t : NumberText} (h : minimum ≤ t.fraction.length) :
    Trims minimum t (t.trimmed minimum) where
  negative_eq := rfl
  whole_eq := rfl
  exists_fraction_eq := exists_trimZeros_append minimum t.fraction
  minimum_le := le_length_trimZeros h
  getLast?_ne := getLast?_trimZeros_ne

/-- Trimming the text is trimming its digits behind the point. -/
theorem trimFraction_text (minimum : Nat) (t : NumberText) :
    String.ofList (trimFraction minimum t.text.toList) = (t.trimmed minimum).text := by
  have hjoin : trimFraction minimum (Decimal.join t.whole t.fraction) =
      Decimal.join t.whole (trimZeros minimum t.fraction) :=
    trimFraction_join t.isDigits_whole minimum
  have htrimmed : (t.trimmed minimum).text = String.ofList (
      if t.negative then '-' :: Decimal.join t.whole (trimZeros minimum t.fraction)
      else Decimal.join t.whole (trimZeros minimum t.fraction)) := rfl
  rw [htrimmed, text, String.toList_ofList]
  by_cases hnegative : t.negative = true
  · rw [if_pos hnegative, if_pos hnegative, trimFraction_cons (by decide), hjoin]
  · rw [if_neg hnegative, if_neg hnegative, hjoin]

/-- A finite number is written with a digit before the point, and with as many behind it as its
text is to have. -/
theorem exists_fixedText_eq {x : Binary64} (hx : x.isFinite = true) (places : Nat) :
    ∃ t : NumberText, x.fixedText places = t.text ∧ t.negative = x.isNegative ∧
      t.fraction.length = places := by
  cases x with
  | nan | infinity => cases hx
  | finite negative index =>
    obtain ⟨whole, fraction, htext, hwhole, hfraction, hlength, -⟩ :=
      Decimal.exists_text_eq (Binary64.fixed index places).digits places
    refine ⟨⟨negative, whole, fraction, hwhole, hfraction⟩, ?_, rfl, hlength⟩
    rw [text, ← htext]
    rfl

end NumberText

/-! ### Formatting -/

/-- A finite number is formatted by the text of the rounded number, trimmed. -/
theorem NumberStyle.exists_format_eq {style : NumberStyle} (hstyle : style.minimum ≤ style.maximum)
    {x : Binary64} (hx : x.isFinite = true) : ∃ printed kept : NumberText,
      (x.roundTo style.maximum).fixedText style.maximum = printed.text ∧
        printed.negative = (x.roundTo style.maximum).isNegative ∧
          printed.fraction.length = style.maximum ∧
            NumberText.Trims style.minimum printed kept ∧ style.format x = kept.text := by
  obtain ⟨printed, hprinted, hnegative, hlength⟩ :=
    NumberText.exists_fixedText_eq (Binary64.isFinite_roundTo hx style.maximum) style.maximum
  refine ⟨printed, printed.trimmed style.minimum, hprinted, hnegative, hlength,
    NumberText.trims_trimmed (hlength ▸ hstyle), ?_⟩
  rw [format, hprinted, NumberText.trimFraction_text]

/-- **The digits behind the point**: with acceptable options, `:number` writes a finite number as
the rounded number is written with the greatest count of digits behind the point, and takes only
zeros away from the end of these, so that no fewer than the least count are left, no needless zero
at their end, and no point without digits behind it.  Other options are refused. -/
theorem number_fraction_digits {value : Value} {x : Binary64} (hvalue : value.toNumber? = some x)
    (hx : x.isFinite = true) (options : Options) :
    (Acceptable options ∧ ∃ (style : NumberStyle) (printed kept : NumberText),
      NumberFunction.number.readStyle options = .ok style ∧ style.AskedBy options ∧
        style.minimum ≤ style.maximum ∧ style.maximum ≤ 20 ∧
          (x.roundTo style.maximum).fixedText style.maximum = printed.text ∧
            printed.negative = (x.roundTo style.maximum).isNegative ∧
              printed.fraction.length = style.maximum ∧
                NumberText.Trims style.minimum printed kept ∧
                  kept.fraction.length ≤ style.maximum ∧ kept.text.toList.getLast? ≠ some '.' ∧
                    NumberFunction.number.format (some value) options = .ok (.string kept.text)) ∨
      (¬ Acceptable options ∧
        NumberFunction.number.Refuses (NumberFunction.number.format (some value) options)) := by
  have hoperand : NumberFunction.operand? value = some x := by
    rw [NumberFunction.operand?, hvalue, Option.filter_some_pos hx]
  by_cases hacceptable : Acceptable options
  · obtain ⟨style, hstyle⟩ := NumberFunction.exists_readStyle_iff.2 hacceptable
    obtain ⟨hle, hmaximum⟩ := NumberFunction.bounds_of_readStyle hstyle
    obtain ⟨printed, kept, hprinted, hnegative, hlength, htrims, hformat⟩ :=
      NumberStyle.exists_format_eq hle hx
    refine .inl ⟨hacceptable, style, printed, kept, hstyle,
      (NumberFunction.readStyle_eq_ok_iff.1 hstyle).2, hle, hmaximum, hprinted, hnegative,
      hlength, htrims, hlength ▸ htrims.length_le, kept.getLast?_text_ne, ?_⟩
    rw [NumberFunction.format, Option.bind_some, hoperand, hstyle, ← hformat]
    rfl
  · refine .inr ⟨hacceptable, ?_⟩
    rw [NumberFunction.format, Option.bind_some, hoperand]
    exact (NumberFunction.refuses_readStyle hacceptable).bind _

/-- Options that ask for a digit behind the point. -/
def oneDigit : Options := .ofList [("minimumFractionDigits", .int 1)]

/-- Minus two and a half. -/
def minusTwoAndHalf : Binary64 := .ofRatio true 5 2

/-- It is written with one digit behind the point, for it loses two zeros of the three places. -/
theorem number_fraction_digits_of_half :
    Value.toNumber? (.float minusTwoAndHalf) = some minusTwoAndHalf ∧
      minusTwoAndHalf.isFinite = true ∧ Acceptable oneDigit ∧
        ∃ (style : NumberStyle) (printed kept : NumberText),
          NumberFunction.number.readStyle oneDigit = .ok style ∧ style.AskedBy oneDigit ∧
            (minusTwoAndHalf.roundTo style.maximum).fixedText style.maximum = printed.text ∧
              printed.fraction.length = style.maximum ∧
                NumberText.Trims style.minimum printed kept ∧ kept.text = "-2.5" := by
  have hfinite : minusTwoAndHalf.isFinite = true := by decide +kernel
  have htext : (NumberFunction.number.format (some (.float minusTwoAndHalf)) oneDigit).toOption.map
      Value.text = some "-2.5" := by decide +kernel
  have hvalue : Value.toNumber? (.float minusTwoAndHalf) = some minusTwoAndHalf := rfl
  rcases number_fraction_digits hvalue hfinite oneDigit with
    ⟨hacceptable, style, printed, kept, hstyle, hasked, -, -, hprinted, -, hlength, htrims, -, -,
      hformat⟩ | ⟨-, description, hrefused⟩
  · rw [hformat] at htext
    exact ⟨hvalue, hfinite, hacceptable, style, printed, kept, hstyle, hasked, hprinted, hlength,
      htrims, Option.some.inj htext⟩
  · rw [hrefused] at htext
    cases htext

end MessageFormat
