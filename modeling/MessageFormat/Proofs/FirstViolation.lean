import MessageFormat.Proofs.Violations

/-!
# The first violation

The check of a message goes through its declarations, or through the parts of a pattern that stands
alone, and stops at the first violation.  The path of an error tells which item that was, and then
the error depends on the items up to this one alone: those before are valid by themselves, and
whatever stands behind does not matter.

* `eachAfter_append`, `eachAfter_eq_error_iff` : the check of a list stops at its first bad item;
* `itemName_inj` : a path tells the number of an item;
* `Message.IsFirstAt` : what it means that an error is about an item;
* `violation_first` : an error is about an item exactly if its path begins with it.
-/

namespace MessageFormat

variable {α : Type}

/-! ### Checks in a row -/

section Checks

variable {segment : String} {e : Error}

theorem within_eq_error_iff {check : Except Error Unit} :
    within segment check = .error e ↔ ∃ inner, check = .error inner ∧ e = inner.within segment := by
  cases check <;> simp [within, Except.mapError, eq_comm]

/-- Checks in a row fail with the first that does. -/
theorem andThen_eq_error_iff {first second : Except Error Unit} :
    (do first; second) = .error e ↔ first = .error e ∨ first = .ok () ∧ second = .error e := by
  cases first <;> simp [bind, Except.bind]

variable {check : List α → α → Except Error Unit} {earlier items : List α}

/-- The items behind some are checked after these. -/
theorem eachAfter_append (segment : String) (check : List α → α → Except Error Unit)
    (earlier items behind : List α) : eachAfter segment check earlier (items ++ behind) =
      (do eachAfter segment check earlier items
          eachAfter segment check (earlier ++ items) behind) := by
  induction items generalizing earlier with
  | nil => rw [List.append_nil]; rfl
  | cons a rest ih =>
    rw [List.cons_append, eachAfter, eachAfter, ih, List.append_assoc, List.singleton_append]
    cases within _ (check earlier a) <;> rfl

/-- The name of an item in a path. -/
def itemName (segment : String) (i : Nat) : String := segment ++ "[" ++ i.repr ++ "]"

/-- The check of a list fails at the first item that does not pass. -/
theorem eachAfter_eq_error_iff : eachAfter segment check earlier items = .error e ↔
    ∃ before a behind inner, items = before ++ a :: behind ∧
      eachAfter segment check earlier before = .ok () ∧ check (earlier ++ before) a = .error inner ∧
        e = inner.within (itemName segment (earlier ++ before).length) := by
  constructor
  · intro h
    induction items generalizing earlier with
    | nil => cases h
    | cons a rest ih =>
      rw [eachAfter, andThen_eq_error_iff, within_eq_error_iff] at h
      obtain ⟨inner, ha, rfl⟩ | ⟨ha, hrest⟩ := h
      · refine ⟨[], a, rest, inner, rfl, rfl, ?_, ?_⟩
        · rwa [List.append_nil]
        · rw [List.append_nil]
          rfl
      · obtain ⟨before, b, behind, inner, rfl, hbefore, hb, rfl⟩ := ih hrest
        refine ⟨a :: before, b, behind, inner, rfl, ?_, ?_, ?_⟩
        · rw [eachAfter, andThen_eq_ok_iff]
          exact ⟨ha, hbefore⟩
        · rwa [← List.singleton_append, ← List.append_assoc]
        · rw [List.append_assoc, List.singleton_append]
  · rintro ⟨before, a, behind, inner, rfl, hbefore, ha, rfl⟩
    rw [eachAfter_append, andThen_eq_error_iff]
    refine .inr ⟨hbefore, ?_⟩
    rw [eachAfter, andThen_eq_error_iff, within_eq_error_iff]
    exact .inl ⟨inner, ha, rfl⟩

end Checks

/-! ### Paths -/

/-- The number of an item can be told from where a path begins. -/
theorem itemName_inj {segment rest rest' : String} {i j : Nat}
    (h : itemName segment i ++ rest = itemName segment j ++ rest') : i = j := by
  have hdigit : ∀ n : Nat, ∀ c ∈ Nat.toDigits 10 n, c.isDigit = true := fun _ _ =>
    Nat.isDigit_of_mem_toDigits (by omega) (by omega)
  have hchars := congrArg String.toList h
  simp only [itemName, Nat.repr_eq_ofList_toDigits, String.toList_append, String.toList_ofList,
    List.append_assoc, List.append_cancel_left_eq] at hchars
  -- the digits end at the bracket
  have hdigits := congrArg (List.takeWhile Char.isDigit) hchars
  rw [List.takeWhile_append_of_pos (hdigit i), List.takeWhile_append_of_pos (hdigit j)] at hdigits
  have hnumber := congrArg (Nat.ofDigitChars 10 · 0) (List.append_cancel_right hdigits)
  simpa only [Nat.ofDigitChars_ten_toDigits] using hnumber

/-- The path of the error begins with a place. -/
def Error.IsUnder (e : Error) (place : String) : Prop := ∃ rest, e.path = some (place ++ rest)

namespace Error

variable {e : Error} {segment place : String}

theorem isUnder_within (e : Error) (segment : String) : (e.within segment).IsUnder segment := by
  rw [IsUnder, path_within]
  cases e.path with
  | none => exact ⟨"", by simp⟩
  | some path => exact ⟨"." ++ path, by simp [String.append_assoc]⟩

theorem IsUnder.within (h : e.IsUnder place) (segment : String) :
    (e.within segment).IsUnder (segment ++ "." ++ place) := by
  obtain ⟨rest, hpath⟩ := h
  exact ⟨rest, by simp [path_within, hpath, String.append_assoc]⟩

/-- Places that a path begins with are not told apart behind the shorter one. -/
theorem IsUnder.exists_append_eq {other : String} (h : e.IsUnder place) (hother : e.IsUnder other) :
    ∃ rest rest', place ++ rest = other ++ rest' := by
  obtain ⟨rest, hrest⟩ := h
  obtain ⟨rest', hrest'⟩ := hother
  exact ⟨rest, rest', Option.some.inj (hrest.symm.trans hrest')⟩

theorem IsUnder.itemName_inj {i j : Nat} (hi : e.IsUnder (place ++ itemName segment i))
    (hj : e.IsUnder (place ++ itemName segment j)) : i = j := by
  obtain ⟨rest, rest', h⟩ := hi.exists_append_eq hj
  rw [String.append_assoc, String.append_assoc, String.append_right_inj] at h
  exact MessageFormat.itemName_inj h

/-- Places that a path begins with have the same characters, as far as both of them reach. -/
theorem IsUnder.char_eq {other : String} (h : e.IsUnder place) (hother : e.IsUnder other) (n : Nat)
    {c d : Char} (hc : place.toList[n]? = some c) (hd : other.toList[n]? = some d) : c = d := by
  obtain ⟨rest, rest', heq⟩ := h.exists_append_eq hother
  have hchars := congrArg (·.toList[n]?) heq
  obtain ⟨hplace, -⟩ := List.getElem?_eq_some_iff.1 hc
  obtain ⟨hlt, -⟩ := List.getElem?_eq_some_iff.1 hd
  simpa only [String.toList_append, List.getElem?_append_left hplace,
    List.getElem?_append_left hlt, hc, hd, Option.some.injEq] using hchars

end Error

/-! ### The first bad item -/

section Items

variable {segment : String} {check : List α → α → Except Error Unit} {items : List α} {e : Error}

/-- Items pass if they and others do. -/
theorem eachAfter_take (h : eachAfter segment check [] items = .ok ()) (i : Nat) :
    eachAfter segment check [] (items.take i) = .ok () := by
  rw [← List.take_append_drop i items, eachAfter_append, andThen_eq_ok_iff] at h
  exact h.1

/-- An error is about an item that its path begins with: the items before it pass, and the items up
to it fail, whatever is behind them. -/
theorem exists_item_of_eachAfter (h : eachAfter segment check [] items = .error e) :
    ∃ i < items.length, e.IsUnder (itemName segment i) ∧
      eachAfter segment check [] (items.take i) = .ok () ∧
        ∀ others : List α, others.take (i + 1) = items.take (i + 1) →
          eachAfter segment check [] others = .error e := by
  obtain ⟨before, a, behind, inner, rfl, hbefore, ha, rfl⟩ := eachAfter_eq_error_iff.1 h
  refine ⟨before.length, by simp, inner.isUnder_within _, by simpa using hbefore, ?_⟩
  intro others hothers
  have hsplit : others = before ++ a :: others.drop (before.length + 1) := by
    conv_lhs => rw [← List.take_append_drop (before.length + 1) others, hothers]
    simp [List.take_append, List.take_of_length_le]
  rw [hsplit]
  exact eachAfter_eq_error_iff.2 ⟨before, a, _, inner, rfl, hbefore, ha, rfl⟩

/-- Items that begin as others do up to some item have this one too. -/
theorem lt_length_of_take_eq {others : List α} {i : Nat}
    (h : others.take (i + 1) = items.take (i + 1)) (hi : i < items.length) : i < others.length := by
  have hlength := congrArg List.length h
  rw [List.length_take, List.length_take] at hlength
  omega

end Items

/-! ### The check of a message -/

namespace Message

/-- The parts of a message that is a pattern and nothing else. -/
def parts : Message → List PatternPart
  | simple pattern => pattern
  | complex .. => []

/-- The message of declarations alone, with nothing to format. -/
def ofDeclarations (declarations : List Declaration) : Message := complex declarations (.pattern [])

/-- An error of a message is about its item number `i`: the items before it are valid by themselves,
and every message with the same items up to this one has the same error. -/
structure IsFirstAt (items : Message → List α) (ofItems : List α → Message) (m : Message)
    (e : Error) (i : Nat) : Prop where
  /-- There is such an item. -/
  lt_length : i < (items m).length
  /-- Nothing is wrong with the items before it. -/
  validate_take : (ofItems ((items m).take i)).validate = .ok ()
  /-- Nothing else than the items up to it matters. -/
  validate_eq : ∀ other : Message, (items other).take (i + 1) = (items m).take (i + 1) →
    other.validate = .error e

theorem validate_simple (pattern : Pattern) : (simple pattern).validate =
    within "simpleMessage" (eachAfter "part" (fun _ => PatternPart.check) [] pattern) := rfl

theorem validate_complex (declarations : List Declaration) (body : MessageBody) :
    (complex declarations body).validate =
      (do (ofDeclarations declarations).validate
          within "complexMessage" body.check) := by
  rw [ofDeclarations, validate, validate]
  cases eachAfter "declaration" Declaration.check [] declarations <;> rfl

theorem validate_ofDeclarations (declarations : List Declaration) :
    (ofDeclarations declarations).validate =
      within "complexMessage" (eachAfter "declaration" Declaration.check [] declarations) := by
  rw [ofDeclarations, validate]
  cases eachAfter "declaration" Declaration.check [] declarations <;> rfl

/-- No error is about two items. -/
theorem IsFirstAt.unique {items : Message → List α} {ofItems : List α → Message} {m : Message}
    {e : Error} {i j : Nat} (hitems : ∀ as, items (ofItems as) = as)
    (hfront : ∀ as n, (ofItems as).validate = .ok () → (ofItems (as.take n)).validate = .ok ())
    (hi : IsFirstAt items ofItems m e i) (hj : IsFirstAt items ofItems m e j) : i = j := by
  -- the items up to one that is at fault are not among those before the other
  have hle : ∀ {i j}, IsFirstAt items ofItems m e i → IsFirstAt items ofItems m e j → j ≤ i := by
    intro i j hi hj
    by_contra hlt
    have hfail := hi.validate_eq (ofItems ((items m).take (i + 1)))
      (by simp [hitems, List.take_take])
    have hpass := hfront _ (i + 1) hj.validate_take
    rw [List.take_take, Nat.min_eq_left (by omega), hfail] at hpass
    cases hpass
  exact Nat.le_antisymm (hle hj hi) (hle hi hj)

section Declarations

variable {ds : List Declaration} {body : MessageBody} {e : Error}

theorem validate_ofDeclarations_take (n : Nat) (h : (ofDeclarations ds).validate = .ok ()) :
    (ofDeclarations (ds.take n)).validate = .ok () := by
  rw [validate_ofDeclarations, within_eq_ok_iff] at h ⊢
  exact eachAfter_take h n

/-- If the declarations are at fault, then the error is about one of them, and begins with it. -/
theorem exists_isFirstAt_declarations (h : (ofDeclarations ds).validate = .error e)
    (body : MessageBody) : ∃ n, e.IsUnder ("complexMessage." ++ itemName "declaration" n) ∧
      IsFirstAt declarations ofDeclarations (complex ds body) e n := by
  rw [validate_ofDeclarations, within_eq_error_iff] at h
  obtain ⟨inner, hinner, rfl⟩ := h
  obtain ⟨n, hn, hunder, hpass, hfail⟩ := exists_item_of_eachAfter hinner
  refine ⟨n, hunder.within "complexMessage", hn, ?_, fun other hother => ?_⟩
  · rw [validate_ofDeclarations, within_eq_ok_iff]
    exact hpass
  · cases other with
    | simple => exact absurd (lt_length_of_take_eq hother hn) (Nat.not_lt_zero n)
    | complex others rest =>
      rw [validate_complex, andThen_eq_error_iff, validate_ofDeclarations, within_eq_error_iff]
      exact .inl ⟨inner, hfail others hother, rfl⟩

/-- The body of a message is at another place than its declarations. -/
theorem not_isUnder_declaration_of_body (h : within "complexMessage" body.check = .error e)
    (i : Nat) : ¬ e.IsUnder ("complexMessage." ++ itemName "declaration" i) := by
  rw [within_eq_error_iff] at h
  obtain ⟨inner, hinner, rfl⟩ := h
  intro hunder
  cases body with
  | pattern pattern =>
    obtain ⟨inmost, -, rfl⟩ := within_eq_error_iff.1 hinner
    have hbody := (inmost.isUnder_within "quotedPattern").within "complexMessage"
    have hchar : 'q' = 'd' := hbody.char_eq hunder 15 rfl (by simp [itemName])
    exact absurd hchar (by decide)
  | matcher matcher =>
    obtain ⟨inmost, -, rfl⟩ := within_eq_error_iff.1 hinner
    have hbody := (inmost.isUnder_within "matcher").within "complexMessage"
    have hchar : 'm' = 'd' := hbody.char_eq hunder 15 rfl (by simp [itemName])
    exact absurd hchar (by decide)

end Declarations

section Parts

variable {pattern : Pattern} {e : Error}

theorem validate_simple_take (n : Nat) (h : (simple pattern).validate = .ok ()) :
    (simple (pattern.take n)).validate = .ok () := by
  rw [validate_simple, within_eq_ok_iff] at h ⊢
  exact eachAfter_take h n

/-- The error of a message that is a pattern is about one of its parts, and begins with it. -/
theorem exists_isFirstAt_parts (h : (simple pattern).validate = .error e) :
    ∃ n, e.IsUnder ("simpleMessage." ++ itemName "part" n) ∧
      IsFirstAt parts simple (simple pattern) e n := by
  rw [validate_simple, within_eq_error_iff] at h
  obtain ⟨inner, hinner, rfl⟩ := h
  obtain ⟨n, hn, hunder, hpass, hfail⟩ := exists_item_of_eachAfter hinner
  refine ⟨n, hunder.within "simpleMessage", hn, ?_, fun other hother => ?_⟩
  · rw [validate_simple, within_eq_ok_iff]
    exact hpass
  · cases other with
    | complex => exact absurd (lt_length_of_take_eq hother hn) (Nat.not_lt_zero n)
    | simple others =>
      rw [validate_simple, within_eq_error_iff]
      exact ⟨inner, hfail others hother, rfl⟩

end Parts

variable {m : Message} {e : Error}

/-- The path of an error begins with a declaration exactly if the error is about it. -/
theorem isUnder_declaration_iff (h : m.validate = .error e) (i : Nat) :
    e.IsUnder ("complexMessage." ++ itemName "declaration" i) ↔
      IsFirstAt declarations ofDeclarations m e i := by
  cases m with
  | simple pattern =>
    obtain ⟨n, hunder, -⟩ := exists_isFirstAt_parts h
    refine iff_of_false (fun hdeclaration => ?_) fun hfirst => Nat.not_lt_zero i hfirst.lt_length
    have hchar : 's' = 'c' := hunder.char_eq hdeclaration 0 (by simp) (by simp)
    exact absurd hchar (by decide)
  | complex ds body =>
    rw [validate_complex, andThen_eq_error_iff] at h
    obtain h | ⟨hvalid, h⟩ := h
    · obtain ⟨n, hunder, hfirst⟩ := exists_isFirstAt_declarations h body
      constructor
      · intro hi
        exact hi.itemName_inj hunder ▸ hfirst
      · intro hi
        exact hi.unique (fun _ => rfl) (fun _ => validate_ofDeclarations_take) hfirst ▸ hunder
    · refine iff_of_false (not_isUnder_declaration_of_body h i) fun hfirst => ?_
      have hfail := hfirst.validate_eq (ofDeclarations ds) rfl
      rw [hvalid] at hfail
      cases hfail

/-- The path of an error begins with a part exactly if the error is about it. -/
theorem isUnder_part_iff (h : m.validate = .error e) (i : Nat) :
    e.IsUnder ("simpleMessage." ++ itemName "part" i) ↔ IsFirstAt parts simple m e i := by
  cases m with
  | simple pattern =>
    obtain ⟨n, hunder, hfirst⟩ := exists_isFirstAt_parts h
    constructor
    · intro hi
      exact hi.itemName_inj hunder ▸ hfirst
    · intro hi
      exact hi.unique (fun _ => rfl) (fun _ => validate_simple_take) hfirst ▸ hunder
  | complex ds body =>
    refine iff_of_false (fun hpart => ?_) fun hfirst => Nat.not_lt_zero i hfirst.lt_length
    rw [validate, within_eq_error_iff] at h
    obtain ⟨inner, -, rfl⟩ := h
    have hchar : 's' = 'c' :=
      hpart.char_eq (inner.isUnder_within "complexMessage") 0 (by simp) (by simp)
    exact absurd hchar (by decide)

end Message

/-- **Violations are local and first**: an error tells the text of a node, and if its path begins
with a declaration or with a part of a message that is a pattern, then it is the error of all
messages with the same items up to this one, and of no message of the items before it. -/
theorem violation_first {m : Message} {e : Error} (h : m.validate = .error e) :
    (∃ node, e.node = some node) ∧ ∀ i,
      (e.IsUnder ("complexMessage." ++ itemName "declaration" i) ↔
        m.IsFirstAt Message.declarations Message.ofDeclarations e i) ∧
      (e.IsUnder ("simpleMessage." ++ itemName "part" i) ↔
        m.IsFirstAt Message.parts Message.simple e i) :=
  ⟨Message.exists_node_of_validate h, fun i =>
    ⟨Message.isUnder_declaration_iff h i, Message.isUnder_part_iff h i⟩⟩

/-- An expression that gives an option of its function twice. -/
def repeatedOption : Expression :=
  ⟨some (.variableName "x"), some (.function ⟨⟨none, "f"⟩,
    [⟨⟨none, "a"⟩, .variableName "x"⟩, ⟨⟨none, "a"⟩, .variableName "x"⟩]⟩), []⟩

/-- A message with it in the second of three declarations, of which the third has no keyword. -/
def repeatedOptionMessage : Message :=
  .complex [.input ⟨some (.variableName "x"), none, []⟩, .assign "y" repeatedOption,
    .reserved ⟨"", [], []⟩] (.pattern [])

/-- What is wrong with it. -/
def repeatedOptionError : Error :=
  ⟨.duplicateOption "a",
    some ⟨some "complexMessage.declaration[1].expression.function.option[1]", some "a"⟩⟩

theorem violation_first_repeatedOption :
    repeatedOptionMessage.validate = .error repeatedOptionError ∧
      repeatedOptionError.IsUnder ("complexMessage." ++ itemName "declaration" 1) ∧
        (∃ node, repeatedOptionError.node = some node) ∧
          repeatedOptionMessage.IsFirstAt Message.declarations Message.ofDeclarations
            repeatedOptionError 1 := by
  have hvalidate : repeatedOptionMessage.validate = .error repeatedOptionError := rfl
  have hunder : repeatedOptionError.IsUnder ("complexMessage." ++ itemName "declaration" 1) :=
    ⟨".expression.function.option[1]", rfl⟩
  obtain ⟨hnode, hfirst⟩ := violation_first hvalidate
  exact ⟨hvalidate, hunder, hnode, (hfirst 1).1.1 hunder⟩

end MessageFormat
