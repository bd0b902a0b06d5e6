import MessageFormat.Token.Scanner
import MessageFormat.Text.Name

/-!
# What scanners accept

For each scanner, the texts on which it succeeds, what it takes of them and what it makes of that.
`Scanner.Yields` says that a scanner takes some characters, makes an item of them and leaves the
rest; each statement is an equivalence, so that it serves to take a scan apart and to run one.

* `Scanner.yields_decoded_iff` : decoding takes characters of its class and escapes, as far as they
  go;
* `Scanner.yields_quoted_iff` : a quoted text is decoded text between bars;
* `Scanner.yields_identifier_iff` : an identifier is a name, or two joined by a colon.
-/

namespace MessageFormat

/-! ### Spellings -/

/-- The list is at its end or goes on with an item that is not of the class. -/
def StopsAt {α : Type} (p : α → Bool) (items : List α) : Prop := ∀ a ∈ items.head?, p a = false

/-- The first text spells the second: a character of the class stands for itself, and a character
behind a backslash too. -/
inductive Decodes (plain : Char → Bool) : List Char → List Char → Prop where
  /-- Nothing spells nothing. -/
  | nil : Decodes plain [] []
  /-- A character that stands for itself. -/
  | plain {c : Char} {spelling text : List Char} (hc : plain c = true)
      (h : Decodes plain spelling text) : Decodes plain (c :: spelling) (c :: text)
  /-- A character behind a backslash. -/
  | escape {c : Char} {spelling text : List Char} (hc : isEscapable c = true)
      (h : Decodes plain spelling text) : Decodes plain ('\\' :: c :: spelling) (c :: text)

/-- Characters that make a name. -/
def IsName (text : List Char) : Prop := isName (String.ofList text) = true

/-- Characters that make a name, or two joined by a colon. -/
inductive IsIdentifier : List Char → Prop where
  /-- A name. -/
  | name {text : List Char} (h : IsName text) : IsIdentifier text
  /-- A name in a namespace. -/
  | qualified {qualifier name : List Char} (hqualifier : IsName qualifier) (hname : IsName name) :
      IsIdentifier (qualifier ++ ':' :: name)

section StopsAt

variable {α : Type} {p : α → Bool}

@[simp]
theorem stopsAt_nil : StopsAt p [] := by simp [StopsAt]

@[simp]
theorem stopsAt_cons {a : α} {rest : List α} : StopsAt p (a :: rest) ↔ p a = false := by
  simp [StopsAt]

theorem StopsAt.mono {q : α → Bool} {items : List α} (h : StopsAt p items)
    (hpq : ∀ a, q a = true → p a = true) : StopsAt q items := by
  intro a ha
  cases hq : q a with
  | false => rfl
  | true =>
    have := h a ha
    rw [hpq a hq] at this
    cases this

theorem stopsAt_dropWhile (p : α → Bool) (items : List α) : StopsAt p (items.dropWhile p) := by
  intro a ha
  have h := List.head?_dropWhile_not p items
  rw [Option.mem_def.1 ha] at h
  simpa using h

theorem takeWhile_append_of_stopsAt {front rest : List α} (hfront : ∀ a ∈ front, p a = true)
    (hrest : StopsAt p rest) : (front ++ rest).takeWhile p = front := by
  rw [List.takeWhile_append_of_pos hfront]
  cases rest with
  | nil => simp
  | cons a rest => simp [stopsAt_cons.1 hrest]

theorem dropWhile_append_of_stopsAt {front rest : List α} (hfront : ∀ a ∈ front, p a = true)
    (hrest : StopsAt p rest) : (front ++ rest).dropWhile p = rest := by
  rw [List.dropWhile_append_of_pos hfront]
  cases rest with
  | nil => simp
  | cons a rest => simp [stopsAt_cons.1 hrest]

end StopsAt

theorem isName_cons {c : Char} {rest : List Char} :
    IsName (c :: rest) ↔ isNameStart c = true ∧ ∀ d ∈ rest, isNameChar d = true := by
  simp [IsName, isName]

theorem not_isName_nil : ¬ IsName [] := by simp [IsName, isName]

theorem isNameChar_of_isNameStart {c : Char} (h : isNameStart c = true) : isNameChar c = true := by
  simp [isNameChar, h]

theorem IsName.forall_isNameChar {text : List Char} (h : IsName text) :
    ∀ c ∈ text, isNameChar c = true := by
  cases text with
  | nil => simp
  | cons c rest =>
    rw [isName_cons] at h
    exact List.forall_mem_cons.2 ⟨isNameChar_of_isNameStart h.1, h.2⟩

theorem IsName.not_mem {text : List Char} {c : Char} (h : IsName text)
    (hc : isNameChar c = false) : c ∉ text := by
  intro hmem
  rw [h.forall_isNameChar c hmem] at hc
  cases hc

theorem isNameChar_colon : isNameChar ':' = false := by decide

theorem IsName.not_mem_colon {text : List Char} (h : IsName text) : ':' ∉ text :=
  h.not_mem isNameChar_colon

namespace Scanner

variable {α β : Type}

/-- On the text, the scanner takes `taken`, makes `a` of it and leaves `rest`. -/
def Yields (s : Scanner α) (text taken : List Char) (a : α) (rest : List Char) : Prop :=
  s text = ⟨taken, rest, .ok a⟩

/-! ### Sequences -/

theorem yields_of_result {s : Scanner α} {text : List Char} {a : α} (h : (s text).result = .ok a) :
    Yields s text (s text).taken a (s text).rest := by
  unfold Yields
  rw [← h]

theorem yields_pure_iff {a b : α} {text taken rest : List Char} :
    Yields (pure a) text taken b rest ↔ taken = [] ∧ b = a ∧ rest = text := by
  simp [Yields, pure, eq_comm, and_comm]

theorem yields_bind_iff {s : Scanner α} {f : α → Scanner β} {text taken rest : List Char} {b : β} :
    Yields (s >>= f) text taken b rest ↔ ∃ first a middle second,
      Yields s text first a middle ∧ Yields (f a) middle second b rest ∧
        taken = first ++ second := by
  constructor
  · intro h
    unfold Yields at h
    simp only [bind] at h
    split at h
    · rename_i a ha
      simp only [Scan.mk.injEq] at h
      refine ⟨(s text).taken, a, (s text).rest, (f a (s text).rest).taken, yields_of_result ha, ?_,
        h.1.symm⟩
      rw [← h.2.1]
      exact yields_of_result h.2.2
    · simp at h
  · rintro ⟨first, a, middle, second, hs, hf, rfl⟩
    unfold Yields at hs hf ⊢
    simp [bind, hs, hf]

theorem not_yields_fail {fault : Fault} {text taken rest : List Char} {a : α} :
    ¬ Yields (fail fault) text taken a rest := by
  simp [Yields, fail]

theorem yields_take_iff {n : Nat} {text taken rest a : List Char} :
    Yields (take n) text taken a rest ↔
      taken = text.take n ∧ a = text.take n ∧ rest = text.drop n := by
  simp [Yields, take, eq_comm, and_comm, and_left_comm]

theorem yields_takeWhile_iff {p : Char → Bool} {text taken rest a : List Char} :
    Yields (takeWhile p) text taken a rest ↔
      text = taken ++ rest ∧ a = taken ∧ (∀ c ∈ taken, p c = true) ∧ StopsAt p rest := by
  simp only [Yields, takeWhile, Scan.mk.injEq, Except.ok.injEq]
  constructor
  · rintro ⟨rfl, rfl, rfl⟩
    exact ⟨List.takeWhile_append_dropWhile.symm, rfl,
      List.all_eq_true.1 List.all_takeWhile, stopsAt_dropWhile p text⟩
  · rintro ⟨rfl, rfl, htaken, hrest⟩
    have h := takeWhile_append_of_stopsAt htaken hrest
    exact ⟨h, dropWhile_append_of_stopsAt htaken hrest, h⟩

theorem yields_peek_bind_iff {f : Option Char → Scanner β} {text taken rest : List Char} {b : β} :
    Yields (peek >>= f) text taken b rest ↔ Yields (f text.head?) text taken b rest := by
  cases h : f text.head? text
  simp [Yields, bind, peek, h]

/-! ### Runs of a class -/

/-- A run that begins with a character of one class and goes on with those of a larger one. -/
theorem yields_run_iff {p q : Char → Bool} {missing : Fault} {text taken rest a : List Char}
    (hqp : ∀ c, q c = true → p c = true) :
    Yields (peek >>= fun next => match next with
      | some c => if q c then takeWhile p else fail missing
      | none => fail missing) text taken a rest ↔
      text = taken ++ rest ∧ a = taken ∧
        (∃ c tail, taken = c :: tail ∧ q c = true ∧ ∀ d ∈ tail, p d = true) ∧ StopsAt p rest := by
  rw [yields_peek_bind_iff]
  cases text with
  | nil =>
    refine ⟨fun h => absurd h not_yields_fail, ?_⟩
    rintro ⟨htext, -, ⟨c, tail, rfl, -⟩, -⟩
    cases htext
  | cons c tail =>
    simp only [List.head?_cons]
    by_cases hc : q c = true
    · rw [if_pos hc, yields_takeWhile_iff]
      constructor
      · rintro ⟨htext, ha, htaken, hrest⟩
        refine ⟨htext, ha, ?_, hrest⟩
        cases taken with
        -- an empty run would stop before a character that belongs to it
        | nil =>
          rw [List.nil_append] at htext
          rw [← htext, stopsAt_cons, hqp c hc] at hrest
          cases hrest
        | cons d taken =>
          rw [List.cons_append, List.cons.injEq] at htext
          rw [htext.1] at hc
          exact ⟨d, taken, rfl, hc, (List.forall_mem_cons.1 htaken).2⟩
      · rintro ⟨htext, ha, ⟨d, taken, rfl, hd, htaken⟩, hrest⟩
        exact ⟨htext, ha, List.forall_mem_cons.2 ⟨hqp d hd, htaken⟩, hrest⟩
    · rw [if_neg hc]
      refine ⟨fun h => absurd h not_yields_fail, ?_⟩
      rintro ⟨htext, -, ⟨d, taken, rfl, hd, -⟩, -⟩
      rw [List.cons_append, List.cons.injEq] at htext
      rw [htext.1] at hc
      exact absurd hd hc

theorem yields_takeSome_iff {p : Char → Bool} {missing : Fault} {text taken rest a : List Char} :
    Yields (takeSome p missing) text taken a rest ↔
      text = taken ++ rest ∧ a = taken ∧ (taken ≠ [] ∧ ∀ c ∈ taken, p c = true) ∧
        StopsAt p rest := by
  have h : (∃ c tail, taken = c :: tail ∧ p c = true ∧ ∀ d ∈ tail, p d = true) ↔
      taken ≠ [] ∧ ∀ c ∈ taken, p c = true := by
    cases taken <;> simp [and_assoc]
  rw [← h]
  exact yields_run_iff fun _ hc => hc

theorem yields_name_iff {missing : Fault} {text taken rest a : List Char} :
    Yields (name missing) text taken a rest ↔
      text = taken ++ rest ∧ a = taken ∧ IsName taken ∧ StopsAt isNameChar rest := by
  have h : (∃ c tail, taken = c :: tail ∧ isNameStart c = true ∧ ∀ d ∈ tail, isNameChar d = true) ↔
      IsName taken := by
    cases taken with
    | nil => simp [not_isName_nil]
    | cons c tail => simp [isName_cons, and_assoc]
  rw [← h]
  exact yields_run_iff fun _ => isNameChar_of_isNameStart

/-! ### Decoded text -/

/-- A character that decoding takes: one of the class, or the backslash of an escape. -/
def goesOn (plain : Char → Bool) (c : Char) : Bool := plain c || c == '\\'

theorem push_eq_iff {scan : Scan (List Char)} {spelling taken rest a : List Char} {c : Char} :
    scan.push spelling c = ⟨taken, rest, .ok a⟩ ↔
      ∃ later b, taken = spelling ++ later ∧ a = c :: b ∧ scan = ⟨later, rest, .ok b⟩ := by
  cases scan with
  | mk later left result =>
    cases result with
    | error fault => simp [Scan.push, Except.map]
    | ok b =>
      simp only [Scan.push, Except.map, Scan.mk.injEq, Except.ok.injEq]
      constructor
      · rintro ⟨rfl, rfl, rfl⟩
        exact ⟨later, b, rfl, rfl, rfl, rfl, rfl⟩
      · rintro ⟨_, _, rfl, rfl, rfl, rfl, rfl⟩
        exact ⟨rfl, rfl, rfl⟩

theorem yields_decoded_iff {plain : Char → Bool} (hplain : plain '\\' = false)
    {text taken rest a : List Char} :
    Yields (decoded plain) text taken a rest ↔
      text = taken ++ rest ∧ Decodes plain taken a ∧ StopsAt (goesOn plain) rest := by
  constructor
  · intro h
    -- the cases are the branches of the scan; only those that yield something are possible
    unfold Yields at h
    fun_induction decoded plain text generalizing taken a with
    | case1 =>
      simp only [Scan.mk.injEq, Except.ok.injEq] at h
      obtain ⟨rfl, rfl, rfl⟩ := h
      exact ⟨rfl, .nil, stopsAt_nil⟩
    | case2 => simp at h
    | case3 c tail hc ih =>
      obtain ⟨later, b, rfl, rfl, hlater⟩ := push_eq_iff.1 h
      obtain ⟨htail, hdecodes, hrest⟩ := ih hlater
      exact ⟨by rw [htail]; rfl, hdecodes.escape hc, hrest⟩
    | case4 c tail hc => simp at h
    | case5 c tail _ _ hc ih =>
      obtain ⟨later, b, rfl, rfl, hlater⟩ := push_eq_iff.1 h
      obtain ⟨htail, hdecodes, hrest⟩ := ih hlater
      exact ⟨by rw [htail]; rfl, hdecodes.plain hc, hrest⟩
    | case6 c tail hend hescape hc =>
      simp only [Scan.mk.injEq, Except.ok.injEq] at h
      obtain ⟨rfl, rfl, rfl⟩ := h
      have hb : c ≠ '\\' := by
        rintro rfl
        cases tail with
        | nil => exact hend rfl rfl
        | cons d tail => exact hescape d tail rfl rfl
      exact ⟨rfl, .nil, by simp [goesOn, hc, hb]⟩
  · rintro ⟨rfl, h, hrest⟩
    -- what stands behind the spelling is scanned last, and stops the scan at once
    unfold Yields
    induction h with
    | nil =>
      cases rest with
      | nil => rfl
      | cons c tail =>
        simp only [stopsAt_cons, goesOn, Bool.or_eq_false_iff, beq_eq_false_iff_ne] at hrest
        rw [List.nil_append, decoded_cons plain hrest.2, hrest.1]
        rfl
    | @plain c spelling text hc _ ih =>
      have hb : c ≠ '\\' := by
        rintro rfl
        rw [hplain] at hc
        cases hc
      rw [List.cons_append, decoded_cons plain hb, if_pos hc, ih]
      rfl
    | @escape c spelling text hc _ ih =>
      rw [List.cons_append, List.cons_append, decoded, if_pos hc, ih]
      rfl

/-- A character at which the text of a pattern does not end. -/
def isNoBrace (c : Char) : Bool := c != '{' && c != '}'

theorem isNoBrace_of_goesOn {c : Char} (h : goesOn isTextChar c = true) : isNoBrace c = true := by
  simp only [goesOn, Bool.or_eq_true, isTextChar_iff, beq_iff_eq] at h
  rcases h with ⟨-, -, hopen, hclose⟩ | rfl
  · simp [isNoBrace, hopen, hclose]
  · decide

theorem yields_patternText_iff {text taken rest a : List Char} :
    Yields patternText text taken a rest ↔
      text = taken ++ rest ∧ Decodes isTextChar taken a ∧ StopsAt isNoBrace rest := by
  refine (yields_bind_iff (s := decoded isTextChar)).trans ?_
  simp only [yields_decoded_iff (show isTextChar '\\' = false by decide), yields_peek_bind_iff]
  constructor
  · rintro ⟨first, b, middle, second, ⟨rfl, hdecodes, hmiddle⟩, hnext, rfl⟩
    cases middle with
    | nil =>
      obtain ⟨rfl, rfl, rfl⟩ := yields_pure_iff.1 hnext
      exact ⟨by simp, by simpa using hdecodes, stopsAt_nil⟩
    | cons c tail =>
      simp only [List.head?_cons] at hnext
      split at hnext
      · rename_i hc
        obtain ⟨rfl, rfl, rfl⟩ := yields_pure_iff.1 hnext
        refine ⟨by simp, by simpa using hdecodes, ?_⟩
        simp only [Bool.or_eq_true, beq_iff_eq] at hc
        rcases hc with rfl | rfl <;> simp [isNoBrace]
      · exact absurd hnext not_yields_fail
  · rintro ⟨rfl, hdecodes, hrest⟩
    refine ⟨taken, a, rest, [], ⟨rfl, hdecodes, hrest.mono fun _ => isNoBrace_of_goesOn⟩, ?_,
      by simp⟩
    cases rest with
    | nil => exact yields_pure_iff.2 ⟨rfl, rfl, rfl⟩
    | cons c tail =>
      simp only [stopsAt_cons, isNoBrace, Bool.and_eq_false_iff, bne_eq_false_iff_eq] at hrest
      simp only [List.head?_cons]
      rw [if_pos (by simpa using hrest)]
      exact yields_pure_iff.2 ⟨rfl, rfl, rfl⟩

/-! ### Sigils and quotes -/

theorem yields_take_one_bind_iff {s : Scanner α} {c : Char} {text taken rest : List Char} {a : α} :
    Yields (take 1 >>= fun _ => s) (c :: text) taken a rest ↔
      ∃ later, taken = c :: later ∧ Yields s text later a rest := by
  rw [yields_bind_iff]
  simp only [yields_take_iff, List.take_succ_cons, List.take_zero, List.drop_succ_cons,
    List.drop_zero]
  constructor
  · rintro ⟨_, _, _, second, ⟨rfl, rfl, rfl⟩, hs, rfl⟩
    exact ⟨second, rfl, hs⟩
  · rintro ⟨later, rfl, hs⟩
    exact ⟨_, _, _, later, ⟨rfl, rfl, rfl⟩, hs, rfl⟩

theorem yields_behind_iff {s : Scanner (List Char)} {c : Char} {text taken rest a : List Char} :
    Yields (behind s) (c :: text) taken a rest ↔
      ∃ later, taken = c :: later ∧ Yields s text later a rest :=
  yields_take_one_bind_iff

theorem yields_quoted_iff {c : Char} {text taken rest a : List Char} :
    Yields quoted (c :: text) taken a rest ↔
      ∃ body, taken = c :: (body ++ ['|']) ∧ text = body ++ '|' :: rest ∧
        Decodes isQuotedChar body a := by
  refine yields_behind_iff.trans ?_
  constructor
  · rintro ⟨later, rfl, h⟩
    obtain ⟨body, b, middle, second, hbody, hnext, rfl⟩ :=
      (yields_bind_iff (s := decoded isQuotedChar)).1 h
    obtain ⟨rfl, hdecodes, -⟩ := (yields_decoded_iff (by decide)).1 hbody
    rw [yields_peek_bind_iff] at hnext
    cases middle with
    | nil => exact absurd hnext not_yields_fail
    | cons d tail =>
      simp only [List.head?_cons] at hnext
      split at hnext
      · rename_i hd
        obtain ⟨_, _, _, _, htake, hpure, rfl⟩ := yields_bind_iff.1 hnext
        obtain ⟨rfl, rfl, rfl⟩ := yields_take_iff.1 htake
        obtain ⟨rfl, rfl, rfl⟩ := yields_pure_iff.1 hpure
        rw [beq_iff_eq] at hd
        exact ⟨body, by simp [hd], by simp [hd], hdecodes⟩
      · exact absurd hnext not_yields_fail
  · rintro ⟨body, rfl, rfl, hdecodes⟩
    refine ⟨body ++ ['|'], rfl, (yields_bind_iff (s := decoded isQuotedChar)).2
      ⟨body, a, '|' :: rest, ['|'], (yields_decoded_iff (by decide)).2 ⟨rfl, hdecodes, ?_⟩, ?_,
        rfl⟩⟩
    · rw [stopsAt_cons]
      decide
    · rw [yields_peek_bind_iff]
      exact yields_bind_iff.2 ⟨['|'], _, rest, [], yields_take_iff.2 ⟨rfl, rfl, rfl⟩,
        yields_pure_iff.2 ⟨rfl, rfl, rfl⟩, rfl⟩

/-! ### Identifiers -/

/-- A colon and the start of a name. -/
def Qualifies (text : List Char) : Prop :=
  ∃ c rest, text = ':' :: c :: rest ∧ isNameStart c = true

theorem qualified_of_not_qualifies {text : List Char} (h : ¬ Qualifies text) :
    qualified text = ⟨[], text, .ok []⟩ := by
  unfold qualified
  split
  · rename_i c rest
    rw [if_neg fun hc => h ⟨c, rest, rfl, hc⟩]
  · rfl

theorem qualified_of_qualifies {c : Char} {rest : List Char} (hc : isNameStart c = true) :
    qualified (':' :: c :: rest) = ⟨':' :: (c :: rest).takeWhile isNameChar,
      (c :: rest).dropWhile isNameChar, .ok (':' :: (c :: rest).takeWhile isNameChar)⟩ := by
  simp only [qualified, hc, if_true]
  rfl

theorem isName_takeWhile {c : Char} {rest : List Char} (hc : isNameStart c = true) :
    IsName ((c :: rest).takeWhile isNameChar) := by
  rw [List.takeWhile_cons_of_pos (isNameChar_of_isNameStart hc), isName_cons]
  exact ⟨hc, List.all_eq_true.1 List.all_takeWhile⟩

theorem yields_qualified_iff {text taken rest a : List Char} :
    Yields qualified text taken a rest ↔ text = taken ++ rest ∧ a = taken ∧
      (taken = [] ∧ ¬ Qualifies text ∨
        ∃ name, taken = ':' :: name ∧ IsName name ∧ StopsAt isNameChar rest) := by
  unfold Yields
  constructor
  · intro h
    by_cases hq : Qualifies text
    · obtain ⟨c, tail, rfl, hc⟩ := hq
      rw [qualified_of_qualifies hc] at h
      simp only [Scan.mk.injEq, Except.ok.injEq] at h
      obtain ⟨rfl, rfl, rfl⟩ := h
      exact ⟨by simp, rfl, .inr ⟨_, rfl, isName_takeWhile hc, stopsAt_dropWhile _ _⟩⟩
    · rw [qualified_of_not_qualifies hq] at h
      simp only [Scan.mk.injEq, Except.ok.injEq] at h
      obtain ⟨rfl, rfl, rfl⟩ := h
      exact ⟨rfl, rfl, .inl ⟨rfl, hq⟩⟩
  · rintro ⟨rfl, rfl, ⟨rfl, hq⟩ | ⟨name, rfl, hname, hrest⟩⟩
    · exact qualified_of_not_qualifies hq
    · cases name with
      | nil => exact absurd hname not_isName_nil
      | cons c tail =>
        rw [isName_cons] at hname
        have hall : ∀ d ∈ c :: tail, isNameChar d = true :=
          List.forall_mem_cons.2 ⟨isNameChar_of_isNameStart hname.1, hname.2⟩
        have htake := takeWhile_append_of_stopsAt hall hrest
        have hdrop := dropWhile_append_of_stopsAt hall hrest
        rw [List.cons_append] at htake hdrop
        rw [List.cons_append, List.cons_append, qualified_of_qualifies hname.1, htake, hdrop]

theorem yields_identifier_iff {text taken rest a : List Char} :
    Yields identifier text taken a rest ↔ text = taken ++ rest ∧ a = taken ∧ IsIdentifier taken ∧
      StopsAt isNameChar rest ∧ (IsName taken → ¬ Qualifies rest) := by
  unfold identifier
  simp only [yields_bind_iff, yields_name_iff, yields_qualified_iff, yields_pure_iff]
  constructor
  · rintro ⟨first, _, middle, _, ⟨rfl, rfl, hname, hmiddle⟩, ⟨second, _, _, _, ⟨rfl, rfl, h⟩,
      ⟨rfl, rfl, rfl⟩, rfl⟩, rfl⟩
    rcases h with ⟨rfl, hq⟩ | ⟨name, rfl, hsecond, hrest⟩
    · exact ⟨by simp, by simp, by simpa using IsIdentifier.name hname, hmiddle, by
        simpa using fun _ => hq⟩
    -- a qualified identifier has a colon in it, so that it is no name
    · refine ⟨by simp, by simp, by simpa using IsIdentifier.qualified hname hsecond, hrest, ?_⟩
      intro h
      exact absurd (by simp) (IsName.not_mem_colon h)
  · rintro ⟨rfl, rfl, hidentifier, hrest, hq⟩
    cases hidentifier with
    | name h =>
      exact ⟨a, a, rest, [], ⟨rfl, rfl, h, hrest⟩, ⟨[], [], rest, [], ⟨rfl, rfl, .inl ⟨rfl, hq h⟩⟩,
        ⟨rfl, by simp, rfl⟩, rfl⟩, by simp⟩
    | @qualified qualifier name hqualifier hname =>
      refine ⟨qualifier, qualifier, ':' :: name ++ rest, ':' :: name,
        ⟨by simp, rfl, hqualifier, ?_⟩, ⟨':' :: name, ':' :: name, rest, [],
          ⟨rfl, rfl, .inr ⟨name, rfl, hname, hrest⟩⟩, ⟨rfl, rfl, rfl⟩, by simp⟩, rfl⟩
      exact stopsAt_cons.2 isNameChar_colon

end Scanner

end MessageFormat
