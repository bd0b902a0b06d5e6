import MessageFormat.Message.Parsing
import MessageFormat.Proofs.Completeness

/-!
# Parsing by the grammar

A source text is parsed as a message just if its tokens derive that message.

* `Message.read_eq_ok_iff` : lexed tokens are read as what they derive;
* `parse_eq_ok_iff_derives` : the same for source texts.
-/

namespace MessageFormat

theorem Message.read_eq_ok_iff {tokens : List Token} {m : Message} (hlexed : Lexed tokens) :
    Message.read tokens = .ok m ↔ Message.DerivesInner tokens m :=
  ⟨Message.derivesInner_of_read hlexed, fun h => Message.read_of_derivesInner h hlexed⟩

/-- Reading lexed tokens leaves no choice. -/
theorem Message.DerivesInner.unique {tokens : List Token} {a b : Message} (hlexed : Lexed tokens)
    (ha : Message.DerivesInner tokens a) (hb : Message.DerivesInner tokens b) : a = b := by
  have h := (Message.read_eq_ok_iff hlexed).2 ha
  rw [(Message.read_eq_ok_iff hlexed).2 hb, Except.ok.injEq] at h
  exact h.symm

theorem Message.tokensBeforeEnd_concat {tokens : List Token} {last : Token}
    (htokens : ∀ token ∈ tokens, token.kind ≠ .endOfInput) (hlast : last.kind = .endOfInput) :
    Message.tokensBeforeEnd (tokens ++ [last]) = tokens := by
  refine takeWhile_append_of_stopsAt (fun token htoken => ?_) ?_
  · simpa using htokens token htoken
  · simp [hlast]

theorem Message.ofTokens_eq_ok_iff {source : String} {tokens : List Token} {m : Message} :
    Message.ofTokens source tokens = .ok m ↔
      Message.read (Message.tokensBeforeEnd tokens) = .ok m := by
  unfold ofTokens
  cases Message.read (Message.tokensBeforeEnd tokens) with
  | error mismatch => constructor <;> rintro ⟨⟩
  | ok message => constructor <;> rintro ⟨⟩ <;> rfl

/-- A source is parsed as what its tokens before the end of the input derive. -/
theorem parse_eq_ok_iff_derivesInner {source : String} {m : Message} :
    parse source = .ok m ↔ ∃ tokens last, tokenize source = .ok (tokens ++ [last]) ∧
      last.kind = .endOfInput ∧ Message.DerivesInner tokens m := by
  have hread {tokens : List Token} (h : tokenize source = .ok tokens) :
      parse source = Message.ofTokens source tokens := by
    rw [parse, h]
    rfl
  constructor
  · intro h
    cases htokenize : tokenize source with
    | error e =>
      rw [parse, htokenize] at h
      cases h
    | ok tokens =>
      obtain ⟨init, last, rfl, hlast, hinit, hspells⟩ := spellsOut_of_tokenize htokenize
      rw [hread htokenize, Message.ofTokens_eq_ok_iff, Message.tokensBeforeEnd_concat hinit hlast,
        Message.read_eq_ok_iff ⟨_, _, hspells⟩] at h
      exact ⟨init, last, rfl, hlast, h⟩
  · rintro ⟨tokens, last, htokenize, hlast, h⟩
    obtain ⟨init, end', heq, -, hinit, hspells⟩ := spellsOut_of_tokenize htokenize
    obtain ⟨rfl, -⟩ := List.append_inj' heq rfl
    rw [hread htokenize, Message.ofTokens_eq_ok_iff, Message.tokensBeforeEnd_concat hinit hlast,
      Message.read_eq_ok_iff ⟨_, _, hspells⟩]
    exact h

/-- **Parsing accepts just the grammar**: a source is parsed as a message if it has tokens without a
fault and these derive the message. -/
theorem parse_eq_ok_iff_derives {source : String} {m : Message} :
    parse source = .ok m ↔ ∃ tokens, tokenize source = .ok tokens ∧ Message.Derives tokens m := by
  rw [parse_eq_ok_iff_derivesInner]
  constructor
  · rintro ⟨tokens, last, htokenize, hlast, h⟩
    exact ⟨_, htokenize, .intro h hlast⟩
  · rintro ⟨_, htokenize, ⟨h, hlast⟩⟩
    exact ⟨_, _, htokenize, hlast, h⟩

end MessageFormat
