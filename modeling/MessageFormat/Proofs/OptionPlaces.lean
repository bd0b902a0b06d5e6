import MessageFormat.Proofs.Brackets

/-!
# Where options stand

Options stand behind the name of a function or of markup, and never behind an attribute: there, a
bare name is a value.  The context of a scanner tells the two apart, and so the tokens of a source
are in order, which a reader of tokens relies on when it takes attributes behind options.

* `not_takesOptions_attributes` : no option may stand behind attributes;
* `Context.takesOptions_after` : a step of the scanner keeps track of where options may stand;
* `orderly_of_tokenize` : the tokens of a source are in order.
-/

namespace MessageFormat

variable {tokens : List Token}

/-! ### Tokens in order -/

/-- Whether options may stand behind a token of the kind. -/
def TokenKind.takesOptions : TokenKind → Bool
  | .functionName | .markupOpen | .markupClose => true
  | _ => false

/-- Options may stand behind the tokens: what takes them is among these, and no attribute behind
it. -/
def TakesOptions : List Token → Prop :=
  Since (fun _ token => token.kind.takesOptions = true) (· ≠ .attributeName)

/-- The tokens were taken from a text, with options where they may stand. -/
structure Orderly (tokens : List Token) : Prop where
  /-- The tokens were taken from a text. -/
  lexed : Lexed tokens
  /-- Options stand where they may. -/
  takesOptions : ∀ before token behind, tokens = before ++ token :: behind →
    token.kind = .optionName → TakesOptions before

/-- What was open is closed behind tokens none of which begins it, if one of them ends it. -/
theorem not_since_append {begins : List Token → Token → Prop} {goesOn : TokenKind → Prop}
    {front rear : List Token} (hbegins : ∀ before, ∀ token ∈ rear, ¬ begins before token)
    (hends : ∃ token ∈ rear, ¬ goesOn token.kind) : ¬ Since begins goesOn (front ++ rear) := by
  rintro ⟨before, first, behind, h, hfirst, hgoesOn⟩
  obtain ⟨last, hlast, hend⟩ := hends
  rcases List.append_eq_append_iff.1 h with ⟨middle, -, hrear⟩ | ⟨middle, -, hbehind⟩
  · exact hbegins before first (by simp [hrear]) hfirst
  · cases middle with
    | nil =>
      obtain rfl : first :: behind = rear := hbehind
      exact hbegins before first List.mem_cons_self hfirst
    | cons other middle =>
      obtain ⟨-, rfl⟩ := List.cons.inj hbehind
      exact hend (hgoesOn last (List.mem_append_right middle hlast))

/-! ### Attributes -/

/-- None of the tokens takes options. -/
def TakeNone (tokens : List Token) : Prop := ∀ token ∈ tokens, token.kind.takesOptions = false

theorem takeNone_append_iff {a b : List Token} :
    TakeNone (a ++ b) ↔ TakeNone a ∧ TakeNone b :=
  List.forall_mem_append

theorem takeNone_cons_iff {token : Token} {rest : List Token} :
    TakeNone (token :: rest) ↔ token.kind.takesOptions = false ∧ TakeNone rest :=
  List.forall_mem_cons

theorem takeNone_singleton {token : Token} {kind : TokenKind} (h : token.kind = kind)
    (hkind : kind.takesOptions = false) : TakeNone [token] := by
  rw [TakeNone, List.forall_mem_singleton, h, hkind]

theorem Gap.takeNone {gap : List Token} (h : Gap gap) : TakeNone gap := by
  cases h with
  | nothing => nofun
  | blank h => exact takeNone_singleton (beq_iff_eq.1 h) rfl

theorem Separator.takeNone {separator : List Token} (h : Separator separator) :
    TakeNone separator := by
  obtain ⟨h⟩ := h
  rw [Token.isSeparator, Bool.and_eq_true] at h
  exact takeNone_singleton (beq_iff_eq.1 h.1) rfl

theorem Operand.Derives.takeNone {content : List Token} {operand : Operand}
    (h : Operand.Derives content operand) : TakeNone content := by
  cases h with
  | variableName h => exact takeNone_singleton h rfl
  | literal h =>
    cases h with
    | quoted h | name h | number h => exact takeNone_singleton h rfl

theorem Assigned.takeNone {rest : List Token} {value : Operand} (h : Assigned rest value) :
    TakeNone rest := by
  obtain ⟨hbefore, hequals, hbehind, hvalue⟩ := h
  rw [takeNone_append_iff, takeNone_cons_iff, takeNone_append_iff, hequals]
  exact ⟨hbefore.takeNone, rfl, hbehind.takeNone, hvalue.takeNone⟩

/-- The tokens of an attribute begin with its name, and none of them takes options. -/
theorem Attribute.Derives.takeNone {rest : List Token} {a : Attribute}
    (h : Attribute.Derives rest a) :
    TakeNone rest ∧ ∃ token ∈ rest, token.kind = .attributeName := by
  cases h with
  | bare hname => exact ⟨takeNone_singleton hname rfl, _, List.mem_cons_self, hname⟩
  | assigned hname h =>
    rw [takeNone_cons_iff, hname]
    exact ⟨⟨rfl, h.takeNone⟩, _, List.mem_cons_self, hname⟩

theorem takeNone_attributes {rear : List Token} {attributes : List Attribute}
    (h : Attributes rear attributes) : TakeNone rear ∧
      (attributes ≠ [] → ∃ token ∈ rear, token.kind = .attributeName) := by
  induction h with
  | nil => exact ⟨nofun, fun hne => absurd rfl hne⟩
  | cons hitem _ ih =>
    obtain ⟨hseparator, hattribute⟩ := hitem
    obtain ⟨hnone, token, hmem, hkind⟩ := hattribute.takeNone
    rw [takeNone_append_iff, takeNone_append_iff]
    exact ⟨⟨⟨hseparator.takeNone, hnone⟩, ih.1⟩, fun _ => ⟨token, by simp [hmem], hkind⟩⟩

/-- No option may stand behind attributes. -/
theorem not_takesOptions_attributes {front rear gap : List Token} {attributes : List Attribute}
    (h : Attributes rear attributes) (hne : attributes ≠ []) (hgap : Gap gap) :
    ¬ TakesOptions (front ++ (rear ++ gap)) := by
  obtain ⟨hrear, hname⟩ := takeNone_attributes h
  obtain ⟨name, hmem, hname⟩ := hname hne
  have hnone : TakeNone (rear ++ gap) := takeNone_append_iff.2 ⟨hrear, hgap.takeNone⟩
  refine not_since_append (fun _ token htoken => Bool.eq_false_iff.1 (hnone token htoken)) ?_
  exact ⟨name, List.mem_append_left gap hmem, fun hgoesOn => hgoesOn hname⟩

/-! ### Tokens of a source -/

/-- Whether a bare name is read as that of an option, unless an equals sign awaits its value. -/
def Context.takesOptions : Context → Bool
  | expression _ state | reservedDirective _ state => state.takesOptions
  | _ => false

section After

variable {context next : Context} {kind : TokenKind} {around : Surroundings}

theorem Context.takesOptions_afterPattern (h : afterPattern around kind = some next) :
    next.takesOptions = false := by
  cases kind with
  | text =>
    cases h
    cases around <;> rfl
  | expressionOpen =>
    cases h
    rfl
  | patternClose =>
    obtain ⟨-, hnext⟩ := Option.ite_none_right_eq_some.1 h
    cases hnext
    rfl
  | _ => cases h

theorem Context.takesOptions_afterHeader (h : afterHeader kind = some next) :
    next.takesOptions = false := by
  cases kind with
  | blank | variableName | equals | catchAll | quotedLiteral | numberLiteral | nameLiteral
  | inputKeyword | localKeyword | matchKeyword | reservedKeyword | patternOpen | expressionOpen =>
    cases h
    rfl
  | _ => cases h

theorem Context.takesOptions_afterExpression {state : ExpressionState}
    (h : afterExpression around state kind = some next) (hnext : next.takesOptions = true) :
    kind.takesOptions = true ∨ state.takesOptions = true ∧ kind ≠ .attributeName := by
  cases kind with
  | functionName | markupOpen | markupClose => exact .inl rfl
  | expressionClose =>
    cases h
    cases around <;> cases hnext
  | attributeName =>
    cases h
    cases hnext
  | selfClose | optionName =>
    obtain ⟨-, hsome⟩ := Option.ite_none_right_eq_some.1 h
    cases hsome
    exact .inr ⟨hnext, nofun⟩
  | nameLiteral =>
    obtain ⟨-, hsome⟩ := Option.ite_none_left_eq_some.1 h
    cases hsome
    exact .inr ⟨hnext, nofun⟩
  | blank | variableName | quotedLiteral | numberLiteral | equals | reservedSigil | privateSigil =>
    cases h
    exact .inr ⟨hnext, nofun⟩
  | _ => cases h

theorem Context.takesOptions_afterReserved {within : Context} {after : TokenKind → Option Context}
    (houter : after kind = some next →
      kind.takesOptions = true ∨ within.takesOptions = true ∧ kind ≠ .attributeName)
    (h : afterReserved within after kind = some next) (hnext : next.takesOptions = true) :
    kind.takesOptions = true ∨ within.takesOptions = true ∧ kind ≠ .attributeName := by
  cases kind with
  | blank | quotedLiteral | reservedText =>
    cases h
    exact .inr ⟨hnext, nofun⟩
  | expressionOpen | expressionClose | patternOpen | attributeName | text | patternClose =>
    exact houter h
  | _ => cases h

/-- Behind what takes options they are taken, until there is an attribute. -/
theorem Context.takesOptions_after (h : context.after kind = some next)
    (hnext : next.takesOptions = true) :
    kind.takesOptions = true ∨ context.takesOptions = true ∧ kind ≠ .attributeName := by
  cases context with
  | start => cases h
  | message | quotedPattern =>
    rw [takesOptions_afterPattern h] at hnext
    cases hnext
  | header =>
    rw [takesOptions_afterHeader h] at hnext
    cases hnext
  | reservedStatement =>
    refine takesOptions_afterReserved (fun houter => ?_) h hnext
    rw [takesOptions_afterHeader houter] at hnext
    cases hnext
  | expression => exact takesOptions_afterExpression h hnext
  | reservedDirective =>
    exact takesOptions_afterReserved (fun houter => takesOptions_afterExpression houter hnext) h
      hnext

theorem Context.takesOptions_of_optionName
    (h : context.after .optionName = some next) : context.takesOptions = true := by
  cases context with
  | expression around state =>
    obtain ⟨hstate, -⟩ := Option.ite_none_right_eq_some.1 h
    exact (Bool.and_eq_true_iff.1 hstate).1
  | start | message | quotedPattern | header | reservedStatement | reservedDirective => cases h

end After

theorem Cursor.Path.takesOptions {cursor stop : Cursor} {before : List Token}
    (path : Path cursor tokens stop) (hstart : cursor.context ≠ .start)
    (h : cursor.context.takesOptions = true → TakesOptions before) :
    stop.context.takesOptions = true → TakesOptions (before ++ tokens) := by
  induction path generalizing before with
  | nil => rwa [List.append_nil]
  | @cons cursor stop tokens hlast path ih =>
    have hafter := next_after hstart hlast
    have hbehind := ih (Context.steps_after hafter).ne_start fun hnext =>
      since_concat_iff.2 ((Context.takesOptions_after hafter hnext).imp_right (And.imp_left h))
    rwa [List.append_assoc] at hbehind

/-- The tokens on a path from the start of a message are in order. -/
theorem Cursor.Path.orderly {position : Position} {text : List Char} {stop : Cursor}
    (path : Path ⟨if Context.beginsComplex text then .header else .message, position, text⟩
      tokens stop) : Orderly tokens where
  lexed := ⟨_, _, path.spellsOut⟩
  takesOptions := by
    rintro before token behind rfl hkind
    have hstart : (if Context.beginsComplex text then Context.header else .message) ≠ .start := by
      split <;> nofun
    have hnone : (if Context.beginsComplex text then Context.header else .message).takesOptions =
        false := by
      split <;> rfl
    obtain ⟨middle, hfront, hbehind⟩ := path.exists_middle
    have htakes : middle.context.takesOptions = true → TakesOptions ([] ++ before) :=
      hfront.takesOptions hstart fun h => by
        rw [hnone] at h
        cases h
    cases hbehind with
    | cons hlast _ =>
      have hafter := next_after (hfront.follows Context.follows_nil).1.ne_start hlast
      rw [hkind] at hafter
      exact htakes (Context.takesOptions_of_optionName hafter)

/-- The tokens before the end of a source are in order. -/
theorem orderly_of_tokenize {source : String} (h : tokenize source = .ok tokens) :
    ∃ init last, tokens = init ++ [last] ∧ Message.tokensBeforeEnd tokens = init ∧
      Orderly init := by
  obtain ⟨init, stop, path, hlast, htokens⟩ := Cursor.exists_path
    ⟨if Context.beginsComplex source.toList then .header else .message, .start, source.toList⟩
  obtain ⟨rfl, hfault⟩ := tokenize_eq_ok_iff.1 h
  rw [tokenizeAll_eq, htokens] at hfault ⊢
  have hinit : ∀ token ∈ init, token.kind ≠ .endOfInput := by
    intro token hmem hkind
    have := path.not_isLast token hmem
    simp [Cursor.isLast, hkind] at this
  have hend : stop.next.1.kind = .endOfInput := by
    have hkind := hfault stop.next.1 (by simp)
    simpa [Cursor.isLast, hkind] using hlast
  exact ⟨init, stop.next.1, rfl, Message.tokensBeforeEnd_concat hinit hend, path.orderly⟩

end MessageFormat
