import MessageFormat.Proofs.Tiers
import MessageFormat.Proofs.WalkReadings

/-!
# Reading in place

A walk over all tokens of a message, whatever they are, stays within them and comes to an end: it
never halts but for an error of reading, and it does what reading the tokens from a list does.

* `Ends` : the result of a walk is that of a reading, wherever the cursor is left;
* `MarkedTape.ends_message` : this is so for messages;
* `parseInPlace_eq` : so reading in place is reading.
-/

namespace MessageFormat

variable {α β : Type} {tape : MarkedTape} {rest : List Token}

/-! ### The end of the input -/

/-- From the first of the tokens `rest` that are left, the walk comes to the result of a reading, or
halts with the error of its mismatch. -/
def Ends (tape : MarkedTape) (rest : List Token) (walk : Walk α) (outcome : Except Mismatch α) :
    Prop :=
  (walk tape.toTape (tape.indexOf rest)).map Prod.fst =
    outcome.mapError fun m => .error (m.toError tape.mark tape.source)

/-- Behind a step that always succeeds, a walk ends as what follows does. -/
theorem Mirrors.andEnds {walk : Walk α} {next : α → Walk β} {a : α} {left : List Token}
    {outcome : Except Mismatch β} (hx : Mirrors tape rest walk (.ok (a, left)))
    (hf : left <:+ tape.front → Ends tape left (next a) outcome) :
    Ends tape rest (walk >>= next) outcome := by
  cases hx with
  | ok hleft h =>
    rw [Ends, Walk.bind_of_ok h]
    exact hf hleft

/-- A walk ends where its first part fails. -/
theorem Mirrors.endsEarly {walk : Walk α} {next : α → Walk β} {m : Mismatch}
    (hx : Mirrors tape rest walk (.error m)) : Ends tape rest (walk >>= next) (.error m) := by
  cases hx with
  | error h =>
    rw [Ends, Walk.bind_of_error h]
    rfl

/-- A walk ends as what is behind its first part does, or where this fails. -/
theorem Mirrors.ends {walk : Walk α} {next : α → Walk β} {x : Except Mismatch (α × List Token)}
    {f : α × List Token → Except Mismatch β} (hx : Mirrors tape rest walk x)
    (hf : ∀ a left, left <:+ tape.front → Ends tape left (next a) (f (a, left))) :
    Ends tape rest (walk >>= next) (x >>= f) := by
  cases hx with
  | ok hleft h => exact (Mirrors.ok hleft h).andEnds fun h => hf _ _ h
  | error h => exact (Mirrors.error h).endsEarly

theorem Walk.exists_advance_eq (tape : Tape) (index : Nat) :
    ∃ last, Walk.advance tape index = .ok ((), last) := by
  rw [Walk.advance]
  split
  · rename_i hlt
    exact ⟨_, Walk.moveTo_eq hlt⟩
  · exact ⟨_, rfl⟩

/-- The mark is taken where nothing is left in front of it. -/
theorem ends_demand (a : α) (h : rest <:+ tape.front) :
    Ends tape rest (Walk.demand .endOfInput >>= fun _ => pure a)
      (expectEnd rest >>= fun _ => pure a) := by
  have hcurrent := mirrors_current h
  cases rest with
  | nil =>
    obtain ⟨last, hlast⟩ := Walk.exists_advance_eq tape.toTape (tape.indexOf [])
    cases hcurrent with
    | ok _ hcurrent =>
      have hdemand : Walk.demand .endOfInput tape.toTape (tape.indexOf []) =
          .ok (tape.mark, last) := by
        rw [Walk.demand, Walk.bind_of_ok hcurrent]
        change (if tape.mark.kind = .endOfInput then _ else _ : Walk Token) _ _ = _
        rw [if_pos tape.kind_mark, Walk.bind_of_ok hlast]
        rfl
      rw [Ends, Walk.bind_of_ok hdemand]
      rfl
  | cons token behind =>
    have hdemand : Mirrors tape (token :: behind) (Walk.demand .endOfInput)
        (mismatch [.endOfInput] (token :: behind)) := by
      refine hcurrent.andThen fun h => ?_
      change Mirrors tape _ (if token.kind = .endOfInput then _ else _) _
      rw [if_neg (tape.kind_head_ne h)]
      exact mirrors_unexpected h
    exact hdemand.endsEarly

/-! ### Messages -/

/-- Behind the body of a message it makes no difference whether blanks were taken with it. -/
theorem skipBlank_settle {body : MessageBody} {left : List Token}
    (h : MessageBody.read rest = .ok (body, left)) :
    skipBlank (body.settle left) = skipBlank left := by
  unfold MessageBody.read at h
  split at h
  · cases h
  split at h
  · obtain ⟨⟨matcher, behind⟩, hmatcher, h⟩ := bind_eq_ok_iff.1 h
    cases h
    rw [MessageBody.settle, skipBlank_of_readBehind hmatcher]
    rfl
  · obtain ⟨⟨pattern, behind⟩, -, h⟩ := bind_eq_ok_iff.1 h
    cases h
    rfl
  · cases h

namespace MarkedTape

variable (tape) in
/-- The cursor tells a complex message by the token that it sees behind blanks. -/
theorem kind_headOf_eq (rest : List Token) :
    ((tape.headOf (rest.dropWhile Token.isBlank)).kind.isKeyword ||
      (tape.headOf (rest.dropWhile Token.isBlank)).kind == .patternOpen) =
        beginsComplexMessage rest := by
  rw [beginsComplexMessage, headOf]
  cases rest.dropWhile Token.isBlank with
  | nil =>
    rw [List.head?_nil, Option.getD_none, tape.kind_mark]
    rfl
  | cons token behind => rfl

variable (tape) in
/-- A message is taken as it is read. -/
theorem ends_message : Ends tape tape.front Walk.message (Message.read tape.front) := by
  have h : tape.front <:+ tape.front := List.suffix_rfl
  refine (mirrors_peekNonBlank h).andEnds fun _ => ?_
  rw [Message.read, kind_headOf_eq]
  cases beginsComplexMessage tape.front with
  | true =>
    rw [if_pos rfl, if_pos rfl]
    have hstatements := mirrors_statements h
    generalize many Declaration.readIfAny Declaration.shortens tape.front = outcome at *
    rcases outcome with m | ⟨declarations, left⟩
    · exact hstatements.endsEarly
    have hbody := @skipBlank_settle (skipBlank left)
    change Mirrors tape _ _ ((MessageBody.read (skipBlank left)).map _) at hstatements
    change Ends tape _ _ (MessageBody.read (skipBlank left) >>= fun x =>
      expectEnd (skipBlank x.2) >>= fun _ => pure (Message.complex declarations x.1))
    generalize MessageBody.read (skipBlank left) = outcome at *
    rcases outcome with m | ⟨body, last⟩
    · exact hstatements.endsEarly
    · refine hstatements.andEnds fun h => (mirrors_takeBlank h).andEnds fun h => ?_
      change Ends tape _ _ (expectEnd (skipBlank last) >>= _)
      rw [← hbody rfl]
      exact ends_demand _ h
  | false =>
    rw [if_neg Bool.false_ne_true, if_neg Bool.false_ne_true]
    exact (mirrors_pattern .endOfInput h).ends fun pattern left h => ends_demand _ h

variable (tape) in
theorem run_message : Walk.message.run tape.toTape =
    (Message.read tape.front).mapError fun m => .error (m.toError tape.mark tape.source) := by
  have hindex : tape.indexOf tape.front = 0 := Nat.sub_self _
  have hends := tape.ends_message
  rw [Ends, hindex] at hends
  rw [Walk.run, Walk.bind_of_ok (Walk.moveTo_eq (hindex ▸ tape.indexOf_lt List.suffix_rfl)), hends]

end MarkedTape

/-! ### Tokens of any kind in any order -/

section Tokens

variable {source : String} {tokens : List Token}

/-- On the tape of some tokens there is a mark, and it is where reading the tokens ends. -/
theorem Tape.exists_tokens_ofTokens (source : String) (tokens : List Token) : ∃ behind,
    (ofTokens source tokens).tokens =
      Message.tokensBeforeEnd tokens ++ Message.endToken source tokens :: behind := by
  have hsplit := List.takeWhile_append_dropWhile (p := (·.kind != .endOfInput)) (l := tokens)
  have hfind : tokens.find? (·.kind == .endOfInput) =
      (tokens.dropWhile (·.kind != .endOfInput)).head? := List.find?_eq_head?_dropWhile_not _ _
  rw [Message.tokensBeforeEnd, Message.endToken, hfind, ofTokens]
  dsimp only
  cases hdrop : tokens.dropWhile (·.kind != .endOfInput) with
  | nil =>
    -- no token marks the end, so the last one does not
    have hlast : ¬tokens.getLast?.any (·.kind == .endOfInput) = true := by
      rw [Option.any_eq_true]
      rintro ⟨last, hlast, hkind⟩
      have hne := List.dropWhile_eq_nil_iff.1 hdrop last (List.mem_of_getLast? hlast)
      exact bne_iff_ne.1 hne (beq_iff_eq.1 hkind)
    rw [hdrop, List.append_nil] at hsplit
    rw [if_neg hlast, hsplit]
    exact ⟨[], rfl⟩
  | cons mark behind =>
    rw [hdrop] at hsplit
    split
    · exact ⟨behind, hsplit.symm⟩
    · refine ⟨behind ++ [⟨.endOfInput, "", .point (.endOf source)⟩], ?_⟩
      rw [List.head?_cons, Option.getD_some, ← List.cons_append, ← List.append_assoc, hsplit]

theorem Tape.startsApart_ofTokens (h : ∀ token ∈ tokens, token.span.StartsApart source) :
    ∀ token ∈ (ofTokens source tokens).tokens, token.span.StartsApart source := by
  intro token htoken
  rw [ofTokens] at htoken
  dsimp only at htoken
  split at htoken
  · exact h token htoken
  · rcases List.mem_append.1 htoken with htoken | htoken
    · exact h token htoken
    · obtain rfl := List.mem_singleton.1 htoken
      exact .inl (Nat.le_refl _)

theorem exists_markedTape (h : ∀ token ∈ tokens, token.span.StartsApart source) :
    ∃ tape : MarkedTape, tape.toTape = .ofTokens source tokens ∧
      tape.front = Message.tokensBeforeEnd tokens ∧ tape.mark = Message.endToken source tokens := by
  obtain ⟨behind, htokens⟩ := Tape.exists_tokens_ofTokens source tokens
  refine ⟨{ Tape.ofTokens source tokens with
    front := Message.tokensBeforeEnd tokens
    mark := Message.endToken source tokens
    behind
    tokens_eq := htokens
    kind_mark := Message.kind_endToken source tokens
    kind_ne := fun token htoken => ?_
    startsApart := Tape.startsApart_ofTokens h }, rfl, rfl, rfl⟩
  exact bne_iff_ne.1 (List.mem_takeWhile_imp (p := fun token : Token => token.kind != _) htoken)

/-- **Whatever the tokens are, a cursor reads them as `Message.ofTokens` does.**  If their spans
start between characters of the source or beyond it, walking over them comes to a message or to an
error of reading.  The cursor never leaves the tokens, no cut goes through a character, and no round
of a loop goes on without having moved the cursor forward. -/
theorem parseInPlace_eq (h : ∀ token ∈ tokens, token.span.StartsApart source) :
    parseInPlace source tokens = (Message.ofTokens source tokens).mapError .error ∧
      ((∃ m, parseInPlace source tokens = .ok m) ∨
        ∃ error, error.tier = .reading ∧ parseInPlace source tokens = .error (.error error)) := by
  have heq : parseInPlace source tokens = (Message.ofTokens source tokens).mapError .error := by
    obtain ⟨tape, htape, hfront, hmark⟩ := exists_markedTape h
    have hsource : tape.source = source := congrArg Tape.source htape
    rw [parseInPlace, ← htape, tape.run_message, Message.ofTokens, hfront, hmark, hsource]
    cases Message.read (Message.tokensBeforeEnd tokens) <;> rfl
  refine ⟨heq, ?_⟩
  rw [heq]
  cases houtcome : Message.ofTokens source tokens with
  | ok m => exact .inl ⟨m, rfl⟩
  | error error =>
    have htier := Message.failsIn_ofTokens source tokens error houtcome
    exact .inr ⟨error, List.mem_singleton.1 htier, rfl⟩

end Tokens

/-- Tokens that no source has: two runs of blanks in a row, of which the second has no characters
and is beyond the source, and a fault behind the end of the input. -/
def strayTokens : List Token :=
  [⟨.text, "é", ⟨0, 2, 1, 1⟩⟩, ⟨.expressionOpen, "\x7b", ⟨0, 1, 1, 1⟩⟩,
    ⟨.variableName, "x", ⟨2, 2, 1, 2⟩⟩, ⟨.blank, " ", ⟨2, 1, 1, 2⟩⟩, ⟨.blank, "", ⟨9, 9, 3, 4⟩⟩,
    ⟨.endOfInput, "", ⟨2, 2, 1, 2⟩⟩, ⟨.fault, "?", ⟨0, 2, 1, 1⟩⟩]

/-- Why they cannot be read: the expression is still open at the second run of blanks. -/
def strayMismatch : Mismatch :=
  ⟨directiveKinds ++ [.attributeName, .expressionClose], strayTokens[4]?⟩

/-- The cause of the error. -/
def strayCause : ErrorCause :=
  .unexpected (strayMismatch.expected.map TokenKind.name) "whitespace" ⟨3, 4, "é"⟩

theorem parseInPlace_stray : (∀ token ∈ strayTokens, token.span.StartsApart "é") ∧
    parseInPlace "é" strayTokens = .error (.error (.ofCause strayCause)) := by
  have hstarts : ∀ token ∈ strayTokens, token.span.StartsApart "é" := by
    intro token htoken
    have hstart : strayTokens.all fun token => token.span.start = 0 ∨ 2 ≤ token.span.start := by
      decide
    rcases decide_eq_true_iff.1 (List.all_eq_true.1 hstart token htoken) with hstart | hstart
    · exact .inr ⟨[], _, rfl, hstart⟩
    · exact .inl hstart
  have hexpression : Expression.read ((strayTokens.take 5).drop 1) = .error strayMismatch :=
    bind_eq_error_iff.2 (.inr ⟨_, rfl, bind_eq_error_iff.2 (.inr ⟨_, rfl,
      bind_eq_error_iff.2 (.inr ⟨_, many_of_none rfl, rfl⟩)⟩)⟩)
  have hplaceholder : PatternPart.readPlaceholder ((strayTokens.take 5).drop 1) =
      .error strayMismatch := bind_eq_error_iff.2 (.inl hexpression)
  have hpattern : Pattern.read .endOfInput (strayTokens.take 5) = .error strayMismatch := by
    have hfirst : PatternPart.readIfAny .endOfInput (strayTokens.take 5) =
        .ok (some (.text "é", (strayTokens.take 5).drop 1)) := rfl
    rw [Pattern.read, many_of_some hfirst, many_of_error (congrArg (Except.map some) hplaceholder)]
    rfl
  have hread : Message.read (Message.tokensBeforeEnd strayTokens) = .error strayMismatch :=
    bind_eq_error_iff.2 (.inl hpattern)
  obtain ⟨heq, -⟩ := parseInPlace_eq hstarts
  rw [Message.ofTokens, hread] at heq
  exact ⟨hstarts, heq⟩

end MessageFormat
