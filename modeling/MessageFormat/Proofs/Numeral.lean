import MessageFormat.Proofs.Scanning

/-!
# What number scanners accept

A number is a sign, an integer, a fraction and an exponent, each scanned as far as it goes.

* `Scanner.yields_number_iff` : scanning a number takes a number literal behind which no name could
  go on;
* `Scanner.isNumberLiteral_iff` : the test for number literals accepts exactly these.
-/

namespace MessageFormat

/-! ### Number literals by their parts -/

/-- One or more digits. -/
def IsDigits (text : List Char) : Prop := text ≠ [] ∧ ∀ c ∈ text, isDigit c = true

/-- An integer without leading zeros. -/
def IsWhole (text : List Char) : Prop := text = ['0'] ∨ IsDigits text ∧ text.head? ≠ some '0'

/-- Nothing, or a point and digits. -/
def IsFraction (text : List Char) : Prop :=
  text = [] ∨ ∃ digits, IsDigits digits ∧ text = '.' :: digits

/-- The mark of an exponent. -/
def isExponentMark (c : Char) : Bool := c == 'e' || c == 'E'

/-- The sign of an exponent. -/
def isExponentSign (c : Char) : Bool := c == '+' || c == '-'

/-- Nothing, or an exponent: its sign may be left out. -/
def IsExponent (text : List Char) : Prop :=
  text = [] ∨ ∃ mark sign digits, isExponentMark mark = true ∧
    (sign = [] ∨ ∃ c, isExponentSign c = true ∧ sign = [c]) ∧ IsDigits digits ∧
      text = mark :: (sign ++ digits)

/-- A number literal, by its parts. -/
def IsNumber (text : List Char) : Prop :=
  ∃ sign whole fraction exponent, (sign = [] ∨ sign = ['-']) ∧ IsWhole whole ∧
    IsFraction fraction ∧ IsExponent exponent ∧ text = sign ++ whole ++ fraction ++ exponent

theorem IsWhole.isDigits {whole : List Char} (h : IsWhole whole) : IsDigits whole := by
  rcases h with rfl | ⟨h, -⟩
  · exact ⟨by simp, List.all_eq_true.1 (by decide)⟩
  · exact h

theorem IsExponent.stopsAt {p : Char → Bool} {exponent rest : List Char} (h : IsExponent exponent)
    (hp : p 'e' = false ∧ p 'E' = false) (hrest : StopsAt p rest) :
    StopsAt p (exponent ++ rest) := by
  rcases h with rfl | ⟨mark, sign, digits, hmark, -, -, rfl⟩
  · exact hrest
  · simp only [isExponentMark, Bool.or_eq_true, beq_iff_eq] at hmark
    rw [List.cons_append, stopsAt_cons]
    rcases hmark with rfl | rfl
    · exact hp.1
    · exact hp.2

theorem IsFraction.stopsAt {p : Char → Bool} {fraction rest : List Char} (h : IsFraction fraction)
    (hp : p '.' = false) (hrest : StopsAt p rest) : StopsAt p (fraction ++ rest) := by
  rcases h with rfl | ⟨digits, -, rfl⟩
  · exact hrest
  · exact stopsAt_cons.2 hp

namespace Scanner

variable {α : Type}

/-! ### Numbers -/

theorem yields_spelling_iff {s : Scanner α} {text taken rest a : List Char} :
    Yields (spelling s) text taken a rest ↔ a = taken ∧ ∃ b, Yields s text taken b rest := by
  unfold Yields spelling
  cases h : s text with
  | mk later left result =>
    cases result with
    | error fault => simp [Except.map]
    | ok b =>
      simp only [Except.map, Scan.mk.injEq, Except.ok.injEq, exists_and_left, exists_eq', and_true]
      constructor
      · rintro ⟨rfl, rfl, rfl⟩
        exact ⟨rfl, rfl, rfl⟩
      · rintro ⟨rfl, rfl, rfl⟩
        exact ⟨rfl, rfl, rfl⟩

theorem yields_whenNext_iff {p : Char → Bool} {s : Scanner Unit} {text taken rest : List Char}
    {u : Unit} :
    Yields (whenNext p s) text taken u rest ↔
      taken = [] ∧ rest = text ∧ StopsAt p text ∨
        ∃ c tail later, text = c :: tail ∧ p c = true ∧ taken = c :: later ∧
          Yields s tail later u rest := by
  unfold whenNext
  rw [yields_peek_bind_iff]
  cases text with
  | nil => simp [yields_pure_iff]
  | cons c tail =>
    simp only [List.head?_cons]
    by_cases hc : p c = true
    · rw [if_pos hc, yields_take_one_bind_iff]
      constructor
      · rintro ⟨later, rfl, hs⟩
        exact .inr ⟨c, tail, later, rfl, hc, rfl, hs⟩
      · rintro (⟨-, -, hstop⟩ | ⟨d, _, later, h, -, rfl, hs⟩)
        · rw [stopsAt_cons, hc] at hstop
          cases hstop
        · rw [List.cons.injEq] at h
          obtain ⟨rfl, rfl⟩ := h
          exact ⟨later, rfl, hs⟩
    · rw [if_neg hc, yields_pure_iff]
      simp [hc]

/-- A scanner whose item does not matter, before others. -/
theorem yields_discard_iff {s : Scanner α} {text taken rest : List Char} {u : Unit} :
    Yields (do let _ ← s) text taken u rest ↔ ∃ a, Yields s text taken a rest := by
  rw [yields_bind_iff]
  simp only [yields_pure_iff]
  constructor
  · rintro ⟨first, a, _, _, hs, ⟨rfl, -, rfl⟩, rfl⟩
    exact ⟨a, by simpa using hs⟩
  · rintro ⟨a, hs⟩
    exact ⟨taken, a, rest, [], hs, ⟨rfl, trivial, rfl⟩, by simp⟩

theorem yields_sign_iff {p : Char → Bool} {text taken rest : List Char} {u : Unit} :
    Yields (whenNext p (pure ())) text taken u rest ↔
      text = taken ++ rest ∧ (taken = [] ∧ StopsAt p rest ∨ ∃ c, p c = true ∧ taken = [c]) := by
  rw [yields_whenNext_iff]
  simp only [yields_pure_iff]
  constructor
  · rintro (⟨rfl, rfl, hstop⟩ | ⟨c, tail, later, rfl, hc, rfl, rfl, -, rfl⟩)
    · exact ⟨rfl, .inl ⟨rfl, hstop⟩⟩
    · exact ⟨rfl, .inr ⟨c, hc, rfl⟩⟩
  · rintro ⟨rfl, ⟨rfl, hstop⟩ | ⟨c, hc, rfl⟩⟩
    · exact .inl ⟨rfl, rfl, hstop⟩
    · exact .inr ⟨c, rest, [], rfl, hc, rfl, rfl, trivial, rfl⟩

theorem yields_digits_iff {missing : Fault} {text taken rest : List Char} {u : Unit} :
    Yields (do let _ ← takeSome isDigit missing) text taken u rest ↔
      text = taken ++ rest ∧ IsDigits taken ∧ StopsAt isDigit rest := by
  rw [yields_discard_iff]
  simp only [yields_takeSome_iff, IsDigits]
  constructor
  · rintro ⟨a, htext, -, htaken, hrest⟩
    exact ⟨htext, htaken, hrest⟩
  · rintro ⟨htext, htaken, hrest⟩
    exact ⟨taken, htext, rfl, htaken, hrest⟩

theorem yields_integer_iff {text taken rest : List Char} {u : Unit} :
    Yields integer text taken u rest ↔
      text = taken ++ rest ∧
        (taken = ['0'] ∨ IsDigits taken ∧ taken.head? ≠ some '0' ∧ StopsAt isDigit rest) := by
  unfold integer
  rw [yields_peek_bind_iff]
  cases text with
  | nil =>
    refine (yields_digits_iff).trans ?_
    constructor
    · rintro ⟨htext, hdigits, -⟩
      exact absurd (List.append_eq_nil_iff.1 htext.symm).1 hdigits.1
    · rintro ⟨htext, rfl | ⟨hdigits, -⟩⟩
      · cases htext
      · exact absurd (List.append_eq_nil_iff.1 htext.symm).1 hdigits.1
  | cons c tail =>
    by_cases hc : c = '0'
    · subst hc
      simp only [List.head?_cons]
      rw [yields_discard_iff]
      simp only [yields_take_iff, List.take_succ_cons, List.take_zero, List.drop_succ_cons,
        List.drop_zero]
      constructor
      · rintro ⟨_, rfl, -, rfl⟩
        exact ⟨rfl, .inl rfl⟩
      · rintro ⟨htext, rfl | ⟨hdigits, hhead, -⟩⟩
        · exact ⟨_, rfl, rfl, (List.cons.inj htext).2.symm⟩
        · cases taken with
          | nil => exact absurd rfl hdigits.1
          | cons d taken =>
            rw [(List.cons.inj htext).1] at hhead
            exact absurd rfl hhead
    · have hnext : (c :: tail).head? = some c := rfl
      split
      · rename_i h
        exact absurd (Option.some.inj h) hc
      · rw [yields_digits_iff]
        constructor
        · rintro ⟨htext, hdigits, hrest⟩
          refine ⟨htext, .inr ⟨hdigits, ?_, hrest⟩⟩
          cases taken with
          | nil => simp
          | cons d taken =>
            rw [← (List.cons.inj htext).1]
            simpa using hc
        · rintro ⟨htext, rfl | ⟨hdigits, -, hrest⟩⟩
          · exact absurd (List.cons.inj htext).1 hc
          · exact ⟨htext, hdigits, hrest⟩

theorem yields_fraction_iff {text taken rest : List Char} {u : Unit} :
    Yields fraction text taken u rest ↔
      text = taken ++ rest ∧ (taken = [] ∧ StopsAt (· == '.') rest ∨
        ∃ digits, IsDigits digits ∧ taken = '.' :: digits ∧ StopsAt isDigit rest) := by
  unfold fraction
  rw [yields_whenNext_iff]
  simp only [yields_digits_iff, beq_iff_eq]
  constructor
  · rintro (⟨rfl, rfl, hstop⟩ | ⟨c, tail, later, rfl, rfl, rfl, rfl, hdigits, hrest⟩)
    · exact ⟨rfl, .inl ⟨rfl, hstop⟩⟩
    · exact ⟨rfl, .inr ⟨later, hdigits, rfl, hrest⟩⟩
  · rintro ⟨rfl, ⟨rfl, hstop⟩ | ⟨digits, hdigits, rfl, hrest⟩⟩
    · exact .inl ⟨rfl, rfl, hstop⟩
    · exact .inr ⟨'.', digits ++ rest, digits, rfl, rfl, rfl, rfl, hdigits, hrest⟩

theorem not_isExponentSign {c : Char} (h : isDigit c = true) : isExponentSign c = false := by
  simp only [isExponentSign, Bool.or_eq_false_iff, beq_eq_false_iff_ne]
  constructor
  · rintro rfl
    exact absurd h (by decide)
  · rintro rfl
    exact absurd h (by decide)

theorem yields_exponent_iff {text taken rest : List Char} {u : Unit} :
    Yields exponent text taken u rest ↔
      text = taken ++ rest ∧ (taken = [] ∧ StopsAt isExponentMark rest ∨
        ∃ mark sign digits, isExponentMark mark = true ∧
          (sign = [] ∨ ∃ c, isExponentSign c = true ∧ sign = [c]) ∧ IsDigits digits ∧
          taken = mark :: (sign ++ digits) ∧ StopsAt isDigit rest) := by
  unfold exponent
  rw [yields_whenNext_iff]
  simp only [yields_bind_iff (s := whenNext _ _), yields_sign_iff, yields_digits_iff]
  constructor
  · rintro (⟨rfl, rfl, hstop⟩ | ⟨mark, _, _, rfl, hmark, rfl, sign, _, _, digits, ⟨rfl, hsign⟩,
      ⟨rfl, hdigits, hrest⟩, rfl⟩)
    · exact ⟨rfl, .inl ⟨rfl, hstop⟩⟩
    · exact ⟨by simp, .inr ⟨mark, sign, digits, hmark, hsign.imp_left And.left, hdigits, rfl,
        hrest⟩⟩
  · rintro ⟨rfl, ⟨rfl, hstop⟩ | ⟨mark, sign, digits, hmark, hsign, hdigits, rfl, hrest⟩⟩
    · exact .inl ⟨rfl, rfl, hstop⟩
    · refine .inr ⟨mark, sign ++ digits ++ rest, sign ++ digits, by simp, hmark, rfl, sign, (),
        digits ++ rest, digits, ⟨by simp, hsign.imp_left fun h => ⟨h, ?_⟩⟩, ⟨rfl, hdigits, hrest⟩,
        rfl⟩
      -- where the sign is left out, a digit stands in its place
      cases digits with
      | nil => exact absurd rfl hdigits.1
      | cons c digits =>
        exact stopsAt_cons.2 (not_isExponentSign (List.forall_mem_cons.1 hdigits.2).1)

/-- The end of a number: where a name could not go on. -/
theorem yields_end_iff {text taken rest : List Char} {u : Unit} :
    Yields (peek >>= fun next => match next with
      | some c => if isNameChar c then fail (.numberRunsOn c) else pure ()
      | none => pure ()) text taken u rest ↔
      taken = [] ∧ rest = text ∧ StopsAt isNameChar text := by
  rw [yields_peek_bind_iff]
  cases text with
  | nil => simp [yields_pure_iff]
  | cons c tail =>
    simp only [List.head?_cons, stopsAt_cons]
    by_cases hc : isNameChar c = true
    · rw [if_pos hc, hc]
      exact ⟨fun h => absurd h not_yields_fail, fun h => absurd h.2.2 (by decide)⟩
    · rw [if_neg hc, yields_pure_iff]
      simp [hc]

theorem yields_number_parts_iff {text taken rest a : List Char} :
    Yields number text taken a rest ↔ a = taken ∧ ∃ sign whole fraction exponent t₁ t₂ t₃,
      Yields (whenNext (· == '-') (pure ())) text sign () t₁ ∧ Yields integer t₁ whole () t₂ ∧
        Yields Scanner.fraction t₂ fraction () t₃ ∧ Yields Scanner.exponent t₃ exponent () rest ∧
          StopsAt isNameChar rest ∧ taken = sign ++ (whole ++ (fraction ++ exponent)) := by
  unfold number
  rw [yields_spelling_iff]
  simp only [yields_bind_iff (s := whenNext _ _), yields_bind_iff (s := integer),
    yields_bind_iff (s := Scanner.fraction), yields_bind_iff (s := Scanner.exponent)]
  refine and_congr_right fun _ => ?_
  constructor
  · rintro ⟨_, sign, _, t₁, _, hsign, ⟨whole, _, t₂, _, hwhole, ⟨fraction, _, t₃, _, hfraction,
      ⟨exponent, _, t₄, _, hexponent, hend, rfl⟩, rfl⟩, rfl⟩, rfl⟩
    obtain ⟨rfl, rfl, hrest⟩ := yields_end_iff.1 hend
    exact ⟨sign, whole, fraction, exponent, t₁, t₂, t₃, hsign, hwhole, hfraction, hexponent, hrest,
      by simp⟩
  · rintro ⟨sign, whole, fraction, exponent, t₁, t₂, t₃, hsign, hwhole, hfraction, hexponent, hrest,
      rfl⟩
    exact ⟨(), sign, (), t₁, _, hsign, ⟨whole, (), t₂, _, hwhole, ⟨fraction, (), t₃, _, hfraction,
      ⟨exponent, (), rest, [], hexponent, yields_end_iff.2 ⟨rfl, rfl, hrest⟩, rfl⟩, rfl⟩, rfl⟩,
      by simp⟩

theorem isNameChar_of_isDigit {c : Char} (h : isDigit c = true) : isNameChar c = true := by
  simp [isNameChar, h]

theorem isNameChar_of_point (c : Char) (h : (c == '.') = true) : isNameChar c = true := by
  rw [beq_iff_eq] at h
  subst h
  decide

theorem isNameChar_of_isExponentMark (c : Char) (h : isExponentMark c = true) :
    isNameChar c = true := by
  simp only [isExponentMark, Bool.or_eq_true, beq_iff_eq] at h
  rcases h with rfl | rfl <;> decide

theorem not_minus_of_isDigit (c : Char) (h : isDigit c = true) : (c == '-') = false := by
  rw [beq_eq_false_iff_ne]
  rintro rfl
  exact absurd h (by decide)

theorem stopsAt_digits {p : Char → Bool} (hp : ∀ c, isDigit c = true → p c = false)
    {digits rest : List Char} (h : IsDigits digits) : StopsAt p (digits ++ rest) := by
  cases digits with
  | nil => exact absurd rfl h.1
  | cons c digits => exact stopsAt_cons.2 (hp c (List.forall_mem_cons.1 h.2).1)

/-- A number is a number literal, as long as a name could go on: it is never cut short. -/
theorem yields_number_iff {text taken rest a : List Char} :
    Yields number text taken a rest ↔
      text = taken ++ rest ∧ a = taken ∧ IsNumber taken ∧ StopsAt isNameChar rest := by
  rw [yields_number_parts_iff]
  simp only [yields_sign_iff, yields_integer_iff, yields_fraction_iff, yields_exponent_iff,
    beq_iff_eq]
  constructor
  · rintro ⟨rfl, sign, whole, fraction, exponent, t₁, t₂, t₃, ⟨rfl, hsign⟩, ⟨rfl, hwhole⟩,
      ⟨rfl, hfraction⟩, ⟨rfl, hexponent⟩, hrest, rfl⟩
    refine ⟨by simp, rfl, ⟨sign, whole, fraction, exponent, ?_, ?_, ?_, ?_, by simp⟩, hrest⟩
    · exact hsign.imp And.left fun ⟨c, hc, hs⟩ => hc ▸ hs
    · exact hwhole.imp_right fun h => ⟨h.1, h.2.1⟩
    · exact hfraction.imp And.left fun ⟨digits, hdigits, hd, _⟩ => ⟨digits, hdigits, hd⟩
    · exact hexponent.imp And.left fun ⟨mark, s, digits, hm, hs, hdigits, he, _⟩ =>
        ⟨mark, s, digits, hm, hs, hdigits, he⟩
  · rintro ⟨rfl, rfl, ⟨sign, whole, fraction, exponent, hsign, hwhole, hfraction, hexponent, rfl⟩,
      hrest⟩
    -- what stands behind each part cannot belong to it
    have hmark : StopsAt isExponentMark rest := hrest.mono isNameChar_of_isExponentMark
    have hpoint : StopsAt (· == '.') (exponent ++ rest) :=
      hexponent.stopsAt (by decide) (hrest.mono isNameChar_of_point)
    have hdigit : StopsAt isDigit (exponent ++ rest) :=
      hexponent.stopsAt (by decide) (hrest.mono fun _ => isNameChar_of_isDigit)
    have hdigits : StopsAt isDigit (fraction ++ (exponent ++ rest)) :=
      hfraction.stopsAt (by decide) hdigit
    have hminus : StopsAt (· == '-') (whole ++ (fraction ++ (exponent ++ rest))) :=
      stopsAt_digits not_minus_of_isDigit hwhole.isDigits
    refine ⟨rfl, sign, whole, fraction, exponent, _, _, _, ⟨by simp, ?_⟩, ⟨rfl, ?_⟩, ⟨rfl, ?_⟩,
      ⟨rfl, ?_⟩, hrest, by simp⟩
    · exact hsign.imp (fun h => ⟨h, hminus⟩) fun h => ⟨'-', rfl, h⟩
    · exact hwhole.imp_right fun h => ⟨h.1, h.2, hdigits⟩
    · exact hfraction.imp (fun h => ⟨h, hpoint⟩) fun ⟨digits, hd, hf⟩ => ⟨digits, hd, hf, hdigit⟩
    · refine hexponent.imp (fun h => ⟨h, hmark⟩) fun ⟨mark, s, digits, hm, hs, hd, he⟩ => ?_
      exact ⟨mark, s, digits, hm, hs, hd, he, hrest.mono fun _ => isNameChar_of_isDigit⟩

/-! ### The test for number literals -/

open NumberLiteral

theorem dropSign_eq_iff {text rest : List Char} :
    dropSign text = rest ↔ ∃ taken, Yields (whenNext (· == '-') (pure ())) text taken () rest := by
  simp only [yields_sign_iff, beq_iff_eq]
  constructor
  · rintro rfl
    unfold dropSign
    split
    · exact ⟨['-'], rfl, .inr ⟨'-', rfl, rfl⟩⟩
    · rename_i hminus
      refine ⟨[], rfl, .inl ⟨rfl, ?_⟩⟩
      cases text with
      | nil => exact stopsAt_nil
      | cons c tail =>
        rw [stopsAt_cons, beq_eq_false_iff_ne]
        rintro rfl
        exact hminus tail rfl
  · rintro ⟨taken, rfl, ⟨rfl, hrest⟩ | ⟨c, rfl, rfl⟩⟩
    · unfold dropSign
      split
      · rename_i htext
        rw [← List.nil_append rest, htext] at hrest
        exact absurd hrest (by simp)
      · rfl
    · rfl

theorem dropDigits?_eq_some_iff {text rest : List Char} :
    dropDigits? text = some rest ↔
      ∃ taken, text = taken ++ rest ∧ IsDigits taken ∧ StopsAt isDigit rest := by
  constructor
  · intro h
    cases text with
    | nil => cases h
    | cons c tail =>
      simp only [dropDigits?] at h
      split at h
      · rename_i hc
        rw [Option.some.injEq] at h
        subst h
        refine ⟨c :: tail.takeWhile isDigit, by simp, ⟨by simp, List.forall_mem_cons.2 ⟨hc, ?_⟩⟩,
          stopsAt_dropWhile _ _⟩
        exact List.all_eq_true.1 List.all_takeWhile
      · cases h
  · rintro ⟨taken, rfl, ⟨hne, hall⟩, hrest⟩
    cases taken with
    | nil => exact absurd rfl hne
    | cons c taken =>
      rw [List.forall_mem_cons] at hall
      rw [List.cons_append, dropDigits?, if_pos hall.1, dropWhile_append_of_stopsAt hall.2 hrest]

theorem dropInteger?_eq_some_iff {text rest : List Char} :
    dropInteger? text = some rest ↔ ∃ taken, Yields integer text taken () rest := by
  simp only [yields_integer_iff]
  constructor
  · intro h
    unfold dropInteger? at h
    split at h
    · rw [Option.some.injEq] at h
      subst h
      exact ⟨['0'], rfl, .inl rfl⟩
    · rename_i hzero
      obtain ⟨taken, rfl, hdigits, hrest⟩ := dropDigits?_eq_some_iff.1 h
      refine ⟨taken, rfl, .inr ⟨hdigits, ?_, hrest⟩⟩
      intro hhead
      cases taken with
      | nil => cases hhead
      | cons c taken =>
        rw [List.head?_cons, Option.some.injEq] at hhead
        subst hhead
        exact hzero _ rfl
  · rintro ⟨taken, rfl, rfl | ⟨hdigits, hhead, hrest⟩⟩
    · rfl
    · unfold dropInteger?
      split
      · rename_i tail htext
        cases taken with
        | nil => exact absurd rfl hdigits.1
        | cons c taken =>
          rw [List.cons_append, List.cons.injEq] at htext
          rw [htext.1] at hhead
          exact absurd rfl hhead
      · exact dropDigits?_eq_some_iff.2 ⟨taken, rfl, hdigits, hrest⟩

theorem dropFraction?_eq_some_iff {text rest : List Char} :
    dropFraction? text = some rest ↔ ∃ taken, Yields fraction text taken () rest := by
  simp only [yields_fraction_iff]
  constructor
  · intro h
    unfold dropFraction? at h
    split at h
    · obtain ⟨digits, rfl, hdigits, hrest⟩ := dropDigits?_eq_some_iff.1 h
      exact ⟨'.' :: digits, rfl, .inr ⟨digits, hdigits, rfl, hrest⟩⟩
    · rename_i hpoint
      rw [Option.some.injEq] at h
      subst h
      refine ⟨[], rfl, .inl ⟨rfl, ?_⟩⟩
      cases text with
      | nil => exact stopsAt_nil
      | cons c tail =>
        rw [stopsAt_cons, beq_eq_false_iff_ne]
        rintro rfl
        exact hpoint tail rfl
  · rintro ⟨taken, rfl, ⟨rfl, hrest⟩ | ⟨digits, hdigits, rfl, hrest⟩⟩
    · unfold dropFraction?
      split
      · rename_i htext
        rw [← List.nil_append rest, htext] at hrest
        exact absurd hrest (by simp)
      · rfl
    · exact dropDigits?_eq_some_iff.2 ⟨digits, rfl, hdigits, hrest⟩

/-- Behind the mark of an exponent there are its digits, with a sign before them or without. -/
theorem dropExponent?_mark {c : Char} {tail rest : List Char} (hc : isExponentMark c = true) :
    dropExponent? (c :: tail) = some rest ↔ ∃ sign digits,
      (sign = [] ∨ ∃ s, isExponentSign s = true ∧ sign = [s]) ∧ IsDigits digits ∧
        tail = sign ++ (digits ++ rest) ∧ StopsAt isDigit rest := by
  simp only [dropExponent?]
  rw [if_pos (show (c == 'e' || c == 'E') = true from hc)]
  constructor
  · intro h
    split at h
    · rename_i sign digits
      split at h
      · rename_i hsign
        obtain ⟨taken, rfl, hdigits, hrest⟩ := dropDigits?_eq_some_iff.1 h
        exact ⟨[sign], taken, .inr ⟨sign, hsign, rfl⟩, hdigits, rfl, hrest⟩
      · obtain ⟨taken, htext, hdigits, hrest⟩ := dropDigits?_eq_some_iff.1 h
        exact ⟨[], taken, .inl rfl, hdigits, htext, hrest⟩
    · cases h
  · rintro ⟨sign, digits, rfl | ⟨s, hs, rfl⟩, hdigits, rfl, hrest⟩
    · -- a digit is no sign
      cases digits with
      | nil => exact absurd rfl hdigits.1
      | cons d digits =>
        have hd := not_isExponentSign (List.forall_mem_cons.1 hdigits.2).1
        simp only [List.nil_append, List.cons_append]
        rw [if_neg (by simpa [isExponentSign] using hd)]
        exact dropDigits?_eq_some_iff.2 ⟨d :: digits, rfl, hdigits, hrest⟩
    · simp only [List.cons_append, List.nil_append]
      rw [if_pos (show (s == '+' || s == '-') = true from hs)]
      exact dropDigits?_eq_some_iff.2 ⟨digits, rfl, hdigits, hrest⟩

theorem dropExponent?_eq_some_iff {text rest : List Char} :
    dropExponent? text = some rest ↔ ∃ taken, Yields exponent text taken () rest := by
  simp only [yields_exponent_iff]
  cases text with
  | nil =>
    simp only [dropExponent?, Option.some.injEq]
    constructor
    · rintro rfl
      exact ⟨[], rfl, .inl ⟨rfl, stopsAt_nil⟩⟩
    · rintro ⟨taken, htext, -⟩
      exact (List.append_eq_nil_iff.1 htext.symm).2.symm
  | cons c tail =>
    by_cases hc : isExponentMark c = true
    · rw [dropExponent?_mark hc]
      constructor
      · rintro ⟨sign, digits, hsign, hdigits, rfl, hrest⟩
        exact ⟨c :: (sign ++ digits), by simp, .inr ⟨c, sign, digits, hc, hsign, hdigits, by simp,
          hrest⟩⟩
      · rintro ⟨taken, htext, ⟨rfl, hrest⟩ | ⟨mark, sign, digits, -, hsign, hdigits, rfl, hrest⟩⟩
        · rw [← List.nil_append rest, ← htext, stopsAt_cons, hc] at hrest
          cases hrest
        · rw [List.cons_append, List.cons.injEq, List.append_assoc] at htext
          exact ⟨sign, digits, hsign, hdigits, htext.2, hrest⟩
    · simp only [dropExponent?]
      rw [if_neg (show ¬ (c == 'e' || c == 'E') = true from hc), Option.some.injEq]
      constructor
      · rintro rfl
        exact ⟨[], rfl, .inl ⟨rfl, by simpa using hc⟩⟩
      · rintro ⟨taken, htext, ⟨rfl, -⟩ | ⟨mark, sign, digits, hmark, -, -, rfl, -⟩⟩
        · exact htext
        · rw [List.cons_append, List.cons.injEq] at htext
          rw [htext.1] at hc
          exact absurd hmark hc

/-- A text is a number literal if a number is all there is of it. -/
theorem isNumberLiteral_iff {text : List Char} :
    isNumberLiteral (String.ofList text) = true ↔ IsNumber text := by
  have h : IsNumber text ↔ Yields number text text text [] := by
    rw [yields_number_iff]
    simp
  rw [h, yields_number_parts_iff, isNumberLiteral, beq_iff_eq, String.toList_ofList]
  simp only [Option.bind_eq_bind, Option.bind_eq_some_iff, dropInteger?_eq_some_iff,
    dropFraction?_eq_some_iff, dropExponent?_eq_some_iff]
  constructor
  · rintro ⟨t₃, ⟨t₂, ⟨whole, hwhole⟩, fraction, hfraction⟩, exponent, hexponent⟩
    obtain ⟨sign, hsign⟩ := dropSign_eq_iff.1 (rfl : dropSign text = _)
    refine ⟨trivial, sign, whole, fraction, exponent, _, _, _, hsign, hwhole, hfraction, hexponent,
      stopsAt_nil, ?_⟩
    -- the four parts are all of the text
    rw [(yields_sign_iff.1 hsign).1, (yields_integer_iff.1 hwhole).1,
      (yields_fraction_iff.1 hfraction).1, (yields_exponent_iff.1 hexponent).1]
    simp
  · rintro ⟨-, sign, whole, fraction, exponent, t₁, t₂, t₃, hsign, hwhole, hfraction, hexponent, -,
      -⟩
    rw [dropSign_eq_iff.2 ⟨sign, hsign⟩]
    exact ⟨t₃, ⟨t₂, ⟨whole, hwhole⟩, fraction, hfraction⟩, exponent, hexponent⟩

end Scanner

end MessageFormat
