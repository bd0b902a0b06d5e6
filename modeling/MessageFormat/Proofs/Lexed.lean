import MessageFormat.Proofs.Tokenization

/-!
# Lexed tokens

What is known of tokens that were taken from a text one behind the other, wherever they stand: each
is spelled as its kind says, and the next one begins where the former could not go on.

* `Lexed.not_blank_blank`, `Lexed.not_text_text` : no two runs of blanks or of text stand side by
  side;
* `spellsOut_of_tokenize` : the tokens of a source are lexed from all of it.
-/

namespace MessageFormat

/-- The tokens spell out the front of a text, ahead of `rest`. -/
inductive SpellsOut : List Token → List Char → List Char → Prop where
  /-- No tokens spell nothing. -/
  | nil {rest : List Char} : SpellsOut [] rest rest
  /-- A token spells what the further tokens stand behind. -/
  | cons {token : Token} {tokens : List Token} {taken text rest : List Char}
      (h : token.Spells taken text) (later : SpellsOut tokens text rest) :
      SpellsOut (token :: tokens) (taken ++ text) rest

/-- The tokens spell out some text. -/
def Lexed (tokens : List Token) : Prop := ∃ text rest, SpellsOut tokens text rest

theorem spellsOut_append_iff {a b : List Token} {text rest : List Char} :
    SpellsOut (a ++ b) text rest ↔
      ∃ middle, SpellsOut a text middle ∧ SpellsOut b middle rest := by
  constructor
  · intro h
    induction a generalizing text with
    | nil => exact ⟨text, .nil, h⟩
    | cons token a ih =>
      cases h with
      | cons h later =>
        obtain ⟨middle, ha, hb⟩ := ih later
        exact ⟨middle, .cons h ha, hb⟩
  · rintro ⟨middle, ha, hb⟩
    induction ha with
    | nil => exact hb
    | cons h _ ih => exact .cons h (ih hb)

/-- Tokens that spell out nothing are no tokens. -/
theorem SpellsOut.exists_front {tokens : List Token} {text rest : List Char}
    (h : SpellsOut tokens text rest) :
    ∃ front, text = front ++ rest ∧ (front = [] → tokens = []) := by
  induction h with
  | nil => exact ⟨[], rfl, fun _ => rfl⟩
  | @cons _ _ taken _ _ hspells _ ih =>
    obtain ⟨front, rfl, -⟩ := ih
    refine ⟨taken ++ front, (List.append_assoc _ _ _).symm, fun hnil => ?_⟩
    obtain ⟨c, later, rfl, -⟩ := hspells.beginsWith
    cases hnil

theorem Cursor.Path.spellsOut {cursor stop : Cursor} {tokens : List Token}
    (path : Path cursor tokens stop) : SpellsOut tokens cursor.rest stop.rest := by
  induction path with
  | nil => exact .nil
  | cons h _ ih =>
    obtain ⟨taken, hrest, hspells, -, -⟩ := next_spells h
    rw [hrest]
    exact .cons hspells ih

/-- What stops before a class is not followed by what begins with it. -/
theorem not_beginsWith {p q : Char → Bool} {second rest : List Char}
    (hstop : StopsAt p (second ++ rest)) (hqp : ∀ c, q c = true → p c = true) :
    ¬ BeginsWith q second := by
  rintro ⟨c, later, rfl, hc⟩
  rw [List.cons_append, stopsAt_cons, hqp c hc] at hstop
  cases hstop

namespace Lexed

theorem left {a b : List Token} (h : Lexed (a ++ b)) : Lexed a := by
  obtain ⟨text, rest, h⟩ := h
  obtain ⟨middle, ha, -⟩ := spellsOut_append_iff.1 h
  exact ⟨text, middle, ha⟩

theorem right {a b : List Token} (h : Lexed (a ++ b)) : Lexed b := by
  obtain ⟨text, rest, h⟩ := h
  obtain ⟨middle, -, hb⟩ := spellsOut_append_iff.1 h
  exact ⟨middle, rest, hb⟩

theorem tail {token : Token} {tokens : List Token} (h : Lexed (token :: tokens)) :
    Lexed tokens :=
  right (a := [token]) h

theorem spells {token : Token} {tokens : List Token} (h : Lexed tokens) (hmem : token ∈ tokens) :
    ∃ taken rest, token.Spells taken rest := by
  obtain ⟨before, behind, rfl⟩ := List.append_of_mem hmem
  obtain ⟨text, rest, hright⟩ := h.right
  cases hright with
  | cons h _ => exact ⟨_, _, h⟩

/-- Each of two tokens side by side is spelled as its kind says, the second ahead of the first. -/
theorem spells_spells {a b : Token} {tokens : List Token} (h : Lexed (a :: b :: tokens)) :
    ∃ first second rest, a.Spells first (second ++ rest) ∧ b.Spells second rest := by
  obtain ⟨text, rest, h⟩ := h
  cases h with
  | cons ha later =>
    cases later with
    | cons hb _ => exact ⟨_, _, _, ha, hb⟩

theorem not_blank_blank {a b : Token} {tokens : List Token} (h : Lexed (a :: b :: tokens))
    (ha : a.kind = .blank) : b.kind ≠ .blank := by
  intro hb
  obtain ⟨first, second, rest, hfirst, hsecond⟩ := h.spells_spells
  rw [Token.Spells, ha] at hfirst
  rw [Token.Spells, hb] at hsecond
  exact not_beginsWith hfirst.2.2 (fun _ hc => hc) hsecond.beginsWith

theorem not_text_text {a b : Token} {tokens : List Token} (h : Lexed (a :: b :: tokens))
    (ha : a.kind = .text) : b.kind ≠ .text := by
  intro hb
  obtain ⟨first, second, rest, hfirst, hsecond⟩ := h.spells_spells
  rw [Token.Spells, ha] at hfirst
  rw [Token.Spells, hb] at hsecond
  exact not_beginsWith hfirst.2.2 (fun _ => Scanner.isNoBrace_of_goesOn) hsecond.beginsWith

theorem value_ne_empty {token : Token} {tokens : List Token} (h : Lexed tokens)
    (hmem : token ∈ tokens) (hblank : token.isBlank = true) : token.value ≠ "" := by
  obtain ⟨taken, rest, hspells⟩ := h.spells hmem
  rw [Token.Spells, beq_iff_eq.1 hblank] at hspells
  intro hempty
  rw [hempty] at hspells
  exact hspells.2.1.1 rfl

/-- A sigil says what it is. -/
theorem exists_sigil {token : Token} {tokens : List Token} (h : Lexed tokens)
    (hmem : token ∈ tokens) (hkind : token.kind = .reservedSigil ∨ token.kind = .privateSigil) :
    ∃ sigil, token.value = String.singleton sigil := by
  obtain ⟨taken, rest, hspells⟩ := h.spells hmem
  rcases hkind with hkind | hkind
  all_goals
    rw [Token.Spells, hkind] at hspells
    obtain ⟨-, sigil, -, hvalue⟩ := hspells
    refine ⟨sigil, ?_⟩
    rw [← String.ofList_toList (s := token.value), hvalue]
    exact String.singleton_eq_ofList.symm

end Lexed

/-- The tokens of a source are lexed from all of it, up to the end of the input. -/
theorem spellsOut_of_tokenize {source : String} {tokens : List Token}
    (h : tokenize source = .ok tokens) : ∃ init last, tokens = init ++ [last] ∧
      last.kind = .endOfInput ∧ (∀ token ∈ init, token.kind ≠ .endOfInput) ∧
        SpellsOut init source.toList [] := by
  obtain ⟨rfl, hfault⟩ := tokenize_eq_ok_iff.1 h
  obtain ⟨init, stop, path, hlast, htokens⟩ := (Cursor.ofSource source).exists_path
  have htokens : tokenizeAll source = init ++ [stop.next.1] := htokens
  rw [htokens] at hfault ⊢
  rcases Cursor.next_last hlast with ⟨hrest, hnext⟩ | ⟨_, _, _, _, hnext, _⟩
  · refine ⟨init, stop.next.1, rfl, by rw [hnext], ?_, ?_⟩
    · intro token htoken hkind
      have := path.not_isLast token htoken
      simp [Cursor.isLast, hkind] at this
    · rw [← hrest]
      exact path.spellsOut
  · refine absurd ?_ (hfault stop.next.1 (by simp))
    rw [hnext]

end MessageFormat
