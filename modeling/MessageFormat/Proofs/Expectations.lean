import Mathlib
import MessageFormat.Proofs.Mismatches
import MessageFormat.Proofs.OptionPlaces

/-!
# What reading errors expect

A reading that fails names the kinds of tokens that could have followed, and what it found instead
is of none of these kinds.  There is one exception: behind the attributes of an expression that has
an operand and no directive, a directive is found fault with and expected at the same time.

* `Explains` : a mismatch expects something, and what it found only in the exception;
* `Message.explains_read` : so does each mismatch of a message whose tokens are `Orderly`;
* `expected_of_parse` : so does each error of a source, which names kinds in words.
-/

namespace MessageFormat

variable {α β : Type} {tokens : List Token}

/-! ### What is found -/

/-- The kind of the first of the tokens, or the end of the input. -/
def kindAhead (tokens : List Token) : TokenKind := (tokens.head?.map Token.kind).getD .endOfInput

/-- The kind of the token that a mismatch found. -/
def Mismatch.foundKind (m : Mismatch) : TokenKind := (m.found.map Token.kind).getD .endOfInput

/-- The tokens of an expression that has an operand, attributes and no directive, as far as its
closing brace. -/
inductive Undirected : List Token → Prop where
  /-- There is at least one attribute. -/
  | intro {opening : Token} {gap content rear final : List Token} {operand : Operand}
      {attributes : List Attribute} (hopening : opening.kind = .expressionOpen) (hgap : Gap gap)
      (hoperand : Operand.Derives content operand) (hattributes : Attributes rear attributes)
      (hne : attributes ≠ []) (hfinal : Gap final) :
      Undirected (opening :: (gap ++ (content ++ (rear ++ final))))

/-- The kinds that are expected behind the attributes of an expression without a directive. -/
def lateKinds : List TokenKind := directiveKinds ++ [.attributeName, .expressionClose]

/-- Among the tokens, the mismatch found a directive behind the attributes of an expression,
although it expects one. -/
def Mismatch.IsLate (m : Mismatch) (tokens : List Token) : Prop :=
  m.expected = lateKinds ∧ ∃ front middle token behind,
    tokens = front ++ (middle ++ token :: behind) ∧ Undirected middle ∧
      token.kind.beginsDirective = true ∧ m.found = some token

/-- A reading that fails expects something, and what it found only if that is a late directive. -/
def Explains (tokens : List Token) (outcome : Except Mismatch α) : Prop :=
  ∀ m, outcome = .error m → m.expected ≠ [] ∧ (m.foundKind ∈ m.expected → m.IsLate tokens)

namespace Explains

theorem ok {a : α} : Explains tokens (.ok a : Except Mismatch α) := nofun

theorem mismatch {expected : List TokenKind} {behind : List Token} (hne : expected ≠ [])
    (h : kindAhead behind ∉ expected) :
    Explains tokens (mismatch expected behind : Except Mismatch α) := by
  rintro _ ⟨⟩
  exact ⟨hne, fun hmem => absurd hmem h⟩

theorem mismatch_bind {expected : List TokenKind} {behind : List Token}
    {f : α → Except Mismatch β} (hne : expected ≠ []) (h : kindAhead behind ∉ expected) :
    Explains tokens (MessageFormat.mismatch expected behind >>= f) :=
  .mismatch hne h

theorem bind {x : Except Mismatch α} {f : α → Except Mismatch β} (hx : Explains tokens x)
    (hf : ∀ a, x = .ok a → Explains tokens (f a)) : Explains tokens (x >>= f) := by
  cases x with
  | error m => rintro _ ⟨⟩; exact hx m rfl
  | ok a => exact hf a rfl

theorem map {x : Except Mismatch α} {f : α → β} (hx : Explains tokens x) :
    Explains tokens (x.map f) := by
  cases x with
  | error m => rintro _ ⟨⟩; exact hx m rfl
  | ok a => exact ok

/-- Repeated readings explain what single ones do. -/
theorem many {item : List Token → Except Mismatch (Option (α × List Token))}
    {shortens : Shortens item} (hstays : ∀ tokens, StaysIn tokens restOfItem (item tokens))
    (hitem : ∀ rest, rest <:+ tokens → Explains tokens (item rest)) {rest : List Token}
    (h : rest <:+ tokens) : Explains tokens (many item shortens rest) := by
  fun_induction MessageFormat.many item shortens rest with
  | case1 rest m hm =>
    rintro _ ⟨⟩
    exact hitem rest h m hm
  | case2 rest hnone => exact ok
  | case3 rest a middle hsome ih => exact (ih (((hstays rest).1 _ hsome).trans h)).map

end Explains

/-! ### Where items end -/

theorem eq_of_many_nil {item : List Token → Except Mismatch (Option (α × List Token))}
    {shortens : Shortens item} {rest behind : List Token}
    (h : many item shortens rest = .ok ([], behind)) : behind = rest := by
  cases many_eq_ok_iff.1 h
  rfl

theorem NamedOption.kindAhead_of_none {rest : List Token}
    (h : NamedOption.readIfAny rest = .ok none) : kindAhead (skipBlank rest) ≠ .optionName := by
  unfold NamedOption.readIfAny at h
  split at h
  · rename_i hskip
    rw [hskip]
    nofun
  · rename_i token behind hskip
    split at h
    · obtain ⟨_, _, h⟩ := bind_eq_ok_iff.1 h
      obtain ⟨_, _, h⟩ := bind_eq_ok_iff.1 h
      cases h
    · rename_i hkind
      rwa [hskip]

theorem Attribute.kindAhead_of_none {rest : List Token}
    (h : Attribute.readIfAny rest = .ok none) : kindAhead (skipBlank rest) ≠ .attributeName := by
  unfold Attribute.readIfAny at h
  split at h
  · rename_i hskip
    rw [hskip]
    nofun
  · rename_i token behind hskip
    split at h
    · obtain ⟨_, _, h⟩ := bind_eq_ok_iff.1 h
      split at h
      · obtain ⟨_, _, h⟩ := bind_eq_ok_iff.1 h
        cases h
      · cases h
    · rename_i hkind
      rwa [hskip]

theorem Expression.kindAhead_of_none {rest : List Token}
    (h : Expression.readIfAny rest = .ok none) : kindAhead rest ≠ .expressionOpen := by
  intro hkind
  cases rest with
  | nil => cases hkind
  | cons token rest =>
    have hkind : token.kind = .expressionOpen := hkind
    have hskip : skipBlank (token :: rest) = token :: rest := by
      rw [skipBlank, Token.isBlank, hkind]
      rfl
    rw [Expression.readIfAny, hskip, if_pos (by simp [hkind])] at h
    cases hread : Expression.read (token :: rest) <;> rw [hread] at h <;> cases h

theorem Variant.skipBlank_of_none {rest : List Token} (h : Variant.readIfAny rest = .ok none) :
    skipBlank rest = [] := by
  unfold Variant.readIfAny at h
  split at h
  · rename_i hempty
    exact List.isEmpty_iff.1 hempty
  · cases hread : Variant.read (skipBlank rest) <;> rw [hread] at h <;> cases h

/-- The kinds that begin a declaration. -/
def declarationKinds : List TokenKind := [.inputKeyword, .localKeyword, .reservedKeyword]

theorem Declaration.kindAhead_of_none {rest : List Token}
    (h : Declaration.readIfAny rest = .ok none) :
    kindAhead (skipBlank rest) ∉ declarationKinds := by
  unfold Declaration.readIfAny at h
  split at h
  · rename_i hskip
    rw [hskip]
    decide
  · rename_i token behind hskip
    rw [hskip]
    change token.kind ∉ declarationKinds
    split at h
    · cases hread : Declaration.readInput behind <;> rw [hread] at h <;> cases h
    · cases hread : Declaration.readAssign behind <;> rw [hread] at h <;> cases h
    · cases hread : Declaration.readReserved token.value behind <;> rw [hread] at h <;> cases h
    · rename_i hinput hlocal hreserved
      simpa [declarationKinds] using ⟨hinput, hlocal, hreserved⟩

namespace Orderly

variable (horderly : Orderly tokens)
include horderly

theorem lexed_of_suffix {rest : List Token} (h : rest <:+ tokens) : Lexed rest := by
  obtain ⟨front, rfl⟩ := h
  exact horderly.lexed.right

/-- Behind a run of blanks there is no other. -/
theorem kindAhead_skipBlank {rest : List Token} (h : rest <:+ tokens) :
    kindAhead (skipBlank rest) ≠ .blank := by
  have hlexed := horderly.lexed_of_suffix h
  cases rest with
  | nil => decide
  | cons token rest =>
    rw [skipBlank]
    split
    · rename_i hblank
      cases rest with
      | nil => decide
      | cons next rest => exact hlexed.not_blank_blank (beq_iff_eq.1 hblank)
    · rename_i hblank
      exact fun hkind => hblank (beq_iff_eq.2 hkind)

/-- The end of the input is none of the tokens. -/
theorem kindAhead_ne_endOfInput {rest : List Token} (h : rest <:+ tokens) (hne : rest ≠ []) :
    kindAhead rest ≠ .endOfInput := by
  cases rest with
  | nil => exact absurd rfl hne
  | cons token rest =>
    obtain ⟨taken, behind, hspells⟩ := (horderly.lexed_of_suffix h).spells List.mem_cons_self
    intro hkind
    have hkind : token.kind = .endOfInput := hkind
    rw [Token.Spells, hkind] at hspells
    exact hspells

/-- Behind attributes there are no options, unless there are no attributes and there were options
before. -/
theorem ne_optionName_of_attributes {rest behind : List Token} {attributes : List Attribute}
    (h : rest <:+ tokens)
    (hmany : many Attribute.readIfAny Attribute.shortens rest = .ok (attributes, behind))
    (hrest : attributes = [] → kindAhead (skipBlank rest) ≠ .optionName) :
    kindAhead (skipBlank behind) ≠ .optionName := by
  by_cases hne : attributes = []
  · subst hne
    rw [eq_of_many_nil hmany]
    exact hrest rfl
  · obtain ⟨rear, rfl, hattributes⟩ := attributes_of_many (horderly.lexed_of_suffix h) hmany
    obtain ⟨gap, hgap, hskip⟩ := exists_gap behind
    intro hkind
    cases hahead : skipBlank behind with
    | nil =>
      rw [hahead] at hkind
      cases hkind
    | cons token later =>
      rw [hahead] at hkind hskip
      obtain ⟨front, rfl⟩ := h
      have hsplit : front ++ (rear ++ behind) = front ++ (rear ++ gap) ++ token :: later := by
        rw [hskip]
        simp
      exact not_takesOptions_attributes hattributes hne hgap
        (horderly.takesOptions _ token later hsplit hkind)

end Orderly

/-! ### Single tokens -/

theorem TokenKind.beginsDirective_iff {kind : TokenKind} :
    kind.beginsDirective = true ↔ kind ∈ directiveKinds := by
  cases kind <;> decide

theorem Literal.not_isLiteral_of_ofToken? {token : Token} (h : ofToken? token = none) :
    token.kind.isLiteral = false := by
  cases hkind : token.kind with
  | quotedLiteral | nameLiteral | numberLiteral =>
    rw [ofToken?, hkind] at h
    cases h
  | _ => rfl

theorem Operand.kind_notMem_of_ofToken? {token : Token} (h : ofToken? token = none) :
    token.kind ∉ operandKinds := by
  unfold ofToken? at h
  split at h
  · cases h
  · rename_i hvariable
    have hliteral := Literal.not_isLiteral_of_ofToken? (Option.map_eq_none_iff.1 h)
    generalize token.kind = kind at hvariable hliteral
    cases kind <;> simp_all [operandKinds, TokenKind.isLiteral]

theorem VariantKey.kind_notMem_of_ofToken? {token : Token} (h : ofToken? token = none) :
    token.kind ∉ keyKinds := by
  unfold ofToken? at h
  split at h
  · cases h
  · rename_i hcatchAll
    have hliteral := Literal.not_isLiteral_of_ofToken? (Option.map_eq_none_iff.1 h)
    generalize token.kind = kind at hcatchAll hliteral
    cases kind <;> simp_all [keyKinds, TokenKind.isLiteral]

theorem explains_expect (kind : TokenKind) (hkind : kind ≠ .endOfInput) (rest : List Token) :
    Explains tokens (expect kind rest) := by
  cases rest with
  | nil => exact .mismatch (List.cons_ne_nil _ _) fun hmem => hkind (List.mem_singleton.1 hmem).symm
  | cons token rest =>
    rw [expect]
    split
    · exact .ok
    · rename_i hne
      exact .mismatch (List.cons_ne_nil _ _) fun hmem => hne (List.mem_singleton.1 hmem)

theorem Operand.explains_read (rest : List Token) : Explains tokens (Operand.read rest) := by
  unfold Operand.read
  split
  · exact .mismatch (List.cons_ne_nil _ _) (by decide)
  · split
    · exact .ok
    · rename_i hnone
      exact .mismatch (List.cons_ne_nil _ _) (kind_notMem_of_ofToken? hnone)

theorem explains_readAssigned (rest : List Token) : Explains tokens (readAssigned rest) :=
  (explains_expect .equals nofun _).bind fun _ _ => Operand.explains_read _

section Readers

variable {rest : List Token} (horderly : Orderly tokens)
include horderly

theorem explains_requireSeparator (h : rest <:+ tokens) :
    Explains tokens (requireSeparator rest) := by
  unfold requireSeparator
  split
  · exact .ok
  · refine .mismatch (List.cons_ne_nil _ _) fun hmem => ?_
    exact horderly.kindAhead_skipBlank h (List.mem_singleton.1 hmem)

theorem explains_expectEnd (h : rest <:+ tokens) : Explains tokens (expectEnd rest) := by
  unfold expectEnd
  split
  · exact .ok
  · rename_i hne
    refine .mismatch (List.cons_ne_nil _ _) fun hmem => ?_
    refine horderly.kindAhead_ne_endOfInput h ?_ (List.mem_singleton.1 hmem)
    exact fun hnil => hne (List.isEmpty_iff.2 hnil)

/-! ### Options, attributes and directives -/

theorem NamedOption.explains_readIfAny (h : rest <:+ tokens) :
    Explains tokens (NamedOption.readIfAny rest) := by
  unfold NamedOption.readIfAny
  split
  · exact .ok
  · split
    · refine (explains_requireSeparator horderly h).bind fun _ _ => ?_
      exact (explains_readAssigned _).bind fun _ _ => .ok
    · exact .ok

theorem Attribute.explains_readIfAny (h : rest <:+ tokens) :
    Explains tokens (Attribute.readIfAny rest) := by
  unfold Attribute.readIfAny
  split
  · exact .ok
  · split
    · refine (explains_requireSeparator horderly h).bind fun _ _ => ?_
      split
      · exact (explains_readAssigned _).bind fun _ _ => .ok
      · exact .ok
    · exact .ok

theorem explains_options (h : rest <:+ tokens) :
    Explains tokens (many NamedOption.readIfAny NamedOption.shortens rest) :=
  .many NamedOption.staysIn_readIfAny (fun _ => NamedOption.explains_readIfAny horderly) h

theorem explains_attributes (h : rest <:+ tokens) :
    Explains tokens (many Attribute.readIfAny Attribute.shortens rest) :=
  .many Attribute.staysIn_readIfAny (fun _ => Attribute.explains_readIfAny horderly) h

theorem Directive.explains_readBehind (token : Token) (h : rest <:+ tokens) :
    Explains tokens (Directive.readBehind token rest) := by
  unfold Directive.readBehind
  split
  · exact (explains_options horderly h).bind fun _ _ => .ok
  · exact .ok

omit horderly in
/-- Behind a directive, none of the kinds stands that could follow it and are no attributes. -/
theorem Directive.kindAhead_of_readBehind {token : Token} {behind : List Token}
    {directive : Directive} (h : Directive.readBehind token rest = .ok (directive, behind)) :
    kindAhead (skipBlank behind) ∉ kindsBehind (some directive) := by
  unfold Directive.readBehind at h
  split at h
  · obtain ⟨⟨options, last⟩, hmany, h⟩ := bind_eq_ok_iff.1 h
    cases h
    exact fun hmem =>
      NamedOption.kindAhead_of_none (item_of_many hmany) (List.mem_singleton.1 hmem)
  · simp only [Except.ok.injEq, Prod.mk.injEq] at h
    obtain ⟨rfl, -⟩ := h
    split <;> exact List.not_mem_nil

theorem explains_readContent (h : rest <:+ tokens) : Explains tokens (readContent rest) := by
  cases rest with
  | nil => exact .mismatch (List.cons_ne_nil _ _) (by decide)
  | cons token rest =>
    have hrest := (List.suffix_cons token rest).trans h
    unfold readContent
    dsimp only
    split
    · split
      · exact .ok
      · rename_i next behind hskip
        split
        · refine (explains_requireSeparator horderly hrest).bind fun _ _ => ?_
          have hbehind := (suffix_of_skipBlank hskip).trans hrest
          exact (Directive.explains_readBehind horderly next hbehind).bind fun _ _ => .ok
        · exact .ok
    · rename_i hoperand
      split
      · exact (Directive.explains_readBehind horderly token hrest).bind fun _ _ => .ok
      · rename_i hdirective
        refine .mismatch (List.cons_ne_nil _ _) fun hmem => ?_
        rcases List.mem_append.1 hmem with hmem | hmem
        · exact Operand.kind_notMem_of_ofToken? hoperand hmem
        · exact hdirective (TokenKind.beginsDirective_iff.2 hmem)

omit horderly in
/-- Behind the content of an expression, none of the kinds stands that could follow its directive
and are no attributes. -/
theorem kindAhead_of_readContent {behind : List Token} {operand : Option Operand}
    {directive : Option Directive} (h : readContent rest = .ok ((operand, directive), behind)) :
    kindAhead (skipBlank behind) ∉ kindsBehind directive := by
  unfold readContent at h
  split at h
  · cases h
  · rename_i token later
    split at h
    · split at h
      · rename_i hskip
        cases h
        rw [hskip]
        decide
      · rename_i next behind hskip
        split at h
        · obtain ⟨_, _, h⟩ := bind_eq_ok_iff.1 h
          obtain ⟨_, hdirective, h⟩ := bind_eq_ok_iff.1 h
          cases h
          exact Directive.kindAhead_of_readBehind hdirective
        · rename_i hnext
          cases h
          rw [hskip]
          exact fun hmem => hnext (TokenKind.beginsDirective_iff.2 hmem)
    · split at h
      · obtain ⟨_, hdirective, h⟩ := bind_eq_ok_iff.1 h
        cases h
        exact Directive.kindAhead_of_readBehind hdirective
      · cases h

/-! ### Expressions and markup -/

/-- What is found behind the attributes of an expression is expected there only if it is a late
directive. -/
theorem isLate_of_attributes {opening token : Token} {inside later behind close : List Token}
    {operand : Option Operand} {directive : Option Directive} {attributes : List Attribute}
    (h : opening :: inside <:+ tokens) (hopening : opening.kind = .expressionOpen)
    (hcontent : readContent (skipBlank inside) = .ok ((operand, directive), later))
    (hattributes : many Attribute.readIfAny Attribute.shortens later = .ok (attributes, behind))
    (hskip : skipBlank behind = token :: close) (hclose : token.kind ≠ .expressionClose)
    (hmem : token.kind ∈ kindsBehind directive ++ [.attributeName, .expressionClose]) :
    Mismatch.IsLate ⟨kindsBehind directive ++ [.attributeName, .expressionClose], some token⟩
      tokens := by
  have hinside := (skipBlank_suffix inside).trans ((List.suffix_cons opening inside).trans h)
  have hlater : later <:+ tokens := ((staysIn_readContent _).1 _ hcontent).trans hinside
  have hstop := kindAhead_of_readContent hcontent
  have hattribute := Attribute.kindAhead_of_none (item_of_many hattributes)
  rw [hskip] at hattribute
  replace hmem : token.kind ∈ kindsBehind directive := by
    rcases List.mem_append.1 hmem with hmem | hmem
    · exact hmem
    · rcases List.mem_pair.1 hmem with hkind | hkind
      · exact absurd hkind hattribute
      · exact absurd hkind hclose
  have hne : attributes ≠ [] := by
    rintro rfl
    rw [← eq_of_many_nil hattributes, hskip] at hstop
    exact hstop hmem
  cases directive with
  | some directive =>
    -- an option, which does not stand behind attributes
    cases directive with
    | function call =>
      have hoption := horderly.ne_optionName_of_attributes hlater hattributes
        fun hnil => absurd hnil hne
      rw [hskip] at hoption
      exact absurd (List.mem_singleton.1 hmem) hoption
    | reserved | privateUse => cases hmem
  | none =>
    obtain ⟨gap, hgap, hinsideEq⟩ := exists_gap inside
    obtain ⟨content, hcontentEq, hderives⟩ :=
      content_of_readContent (horderly.lexed_of_suffix hinside) hcontent
    obtain ⟨rear, rfl, hrear⟩ := attributes_of_many (horderly.lexed_of_suffix hlater) hattributes
    obtain ⟨final, hfinal, hbehindEq⟩ := exists_gap behind
    obtain ⟨front, rfl⟩ := h
    obtain ⟨hoperand⟩ := hderives
    refine ⟨rfl, front, _, token, close, ?_, .intro hopening hgap hoperand hrear hne hfinal,
      TokenKind.beginsDirective_iff.2 hmem, rfl⟩
    rw [hinsideEq, hcontentEq, hbehindEq, hskip]
    simp

theorem Expression.explains_read (h : rest <:+ tokens) :
    Explains tokens (Expression.read rest) := by
  refine (explains_expect .expressionOpen nofun rest).bind fun ⟨opening, inside⟩ hopening => ?_
  obtain ⟨rfl, hkind⟩ := expect_eq_ok_iff.1 hopening
  have hinside := (skipBlank_suffix inside).trans ((List.suffix_cons opening inside).trans h)
  refine (explains_readContent horderly hinside).bind
    fun ⟨⟨operand, directive⟩, later⟩ hcontent => ?_
  have hlater : later <:+ tokens := ((staysIn_readContent _).1 _ hcontent).trans hinside
  refine (explains_attributes horderly hlater).bind fun ⟨attributes, behind⟩ hattributes => ?_
  have hne : kindsBehind directive ++ [.attributeName, .expressionClose] ≠ [] := by simp
  dsimp only
  split
  · refine .mismatch hne ?_
    cases directive with
    | none => decide
    | some directive => cases directive <;> simp [kindAhead, kindsBehind]
  · rename_i token close hskip
    split
    · exact .ok
    · rename_i hclose
      rintro _ ⟨⟩
      exact ⟨hne, isLate_of_attributes horderly h hkind hcontent hattributes hskip hclose⟩

theorem Expression.explains_readIfAny (h : rest <:+ tokens) :
    Explains tokens (Expression.readIfAny rest) := by
  unfold Expression.readIfAny
  split
  · exact (Expression.explains_read horderly ((skipBlank_suffix rest).trans h)).map
  · exact .ok

theorem explains_expressions (h : rest <:+ tokens) :
    Explains tokens (many Expression.readIfAny Expression.shortens rest) :=
  .many Expression.staysIn_readIfAny (fun _ => Expression.explains_readIfAny horderly) h

/-- Behind the slash of standalone markup there are but closing braces. -/
theorem beginsWithBrace_of_selfClose {slash close : Token} {behind : List Token}
    (h : slash :: close :: behind <:+ tokens) (hkind : slash.kind = .selfClose) :
    close.kind.begins '}' = true := by
  obtain ⟨first, second, last, hslash, hclose⟩ := (horderly.lexed_of_suffix h).spells_spells
  rw [Token.Spells, hkind] at hslash
  obtain ⟨c, later, rfl, hbegins⟩ := hclose.beginsWith
  obtain rfl : c = '}' := Option.some.inj hslash.2.2
  exact hbegins

theorem explains_readMarkupEnd (mayStandAlone : Bool) (h : rest <:+ tokens)
    (hoption : kindAhead rest ≠ .optionName) (hattribute : kindAhead rest ≠ .attributeName) :
    Explains tokens (readMarkupEnd mayStandAlone rest) := by
  cases rest with
  | nil => exact .mismatch (List.cons_ne_nil _ _) (by cases mayStandAlone <;> decide)
  | cons token rest =>
    have hoption : token.kind ≠ .optionName := hoption
    have hattribute : token.kind ≠ .attributeName := hattribute
    unfold readMarkupEnd
    dsimp only
    split
    · rename_i hslash
      rw [Bool.and_eq_true, beq_iff_eq] at hslash
      cases rest with
      | nil => exact .mismatch (List.cons_ne_nil _ _) (by decide)
      | cons close behind =>
        dsimp only
        split
        · exact .ok
        · rename_i hclose
          have hbegins := beginsWithBrace_of_selfClose horderly h hslash.2
          refine .mismatch (List.cons_ne_nil _ _) fun hmem => ?_
          have hmem : close.kind ∈ [.optionName, .attributeName, .expressionClose] := hmem
          simp only [List.mem_cons, List.not_mem_nil, or_false] at hmem
          rcases hmem with hkind | hkind | hkind
          · exact absurd (hkind ▸ hbegins) (by decide)
          · exact absurd (hkind ▸ hbegins) (by decide)
          · exact hclose hkind
    · rename_i hslash
      split
      · exact .ok
      · rename_i hclose
        refine .mismatch (List.cons_ne_nil _ _) fun hmem => ?_
        cases mayStandAlone <;> simp_all [kindAhead]

theorem Markup.explains_read (h : rest <:+ tokens) : Explains tokens (Markup.read rest) := by
  refine (explains_expect .expressionOpen (by decide) rest).bind ?_
  rintro ⟨opening, inside⟩ hopening
  have hinside := (skipBlank_suffix inside).trans (((staysIn_expect _ _).1 _ hopening).trans h)
  dsimp only
  split
  · exact .mismatch (List.cons_ne_nil _ _) (by decide)
  · rename_i token later hskip
    rw [hskip] at hinside
    split
    · have hlater := (List.suffix_cons token later).trans hinside
      refine (explains_options horderly hlater).bind ?_
      rintro ⟨options, behind⟩ hoptions
      have hbehind : behind <:+ tokens :=
        ((StaysIn.many NamedOption.staysIn_readIfAny _).1 _ hoptions).trans hlater
      refine (explains_attributes horderly hbehind).bind ?_
      rintro ⟨attributes, last⟩ hattributes
      have hlast : last <:+ tokens :=
        ((StaysIn.many Attribute.staysIn_readIfAny _).1 _ hattributes).trans hbehind
      have hoption := horderly.ne_optionName_of_attributes hbehind hattributes
        fun _ => NamedOption.kindAhead_of_none (item_of_many hoptions)
      have hattribute := Attribute.kindAhead_of_none (item_of_many hattributes)
      exact (explains_readMarkupEnd horderly _ ((skipBlank_suffix last).trans hlast) hoption
        hattribute).bind fun _ _ => .ok
    · rename_i hmarkup
      refine .mismatch (List.cons_ne_nil _ _) fun hmem => hmarkup ?_
      have hmem : token.kind ∈ [.markupOpen, .markupClose] := hmem
      rcases List.mem_pair.1 hmem with hkind | hkind <;> rw [hkind] <;> rfl

/-! ### Patterns and matchers -/

theorem PatternPart.explains_readPlaceholder (h : rest <:+ tokens) :
    Explains tokens (PatternPart.readPlaceholder rest) := by
  unfold PatternPart.readPlaceholder
  split
  · exact (Markup.explains_read horderly h).bind fun _ _ => .ok
  · exact (Expression.explains_read horderly h).bind fun _ _ => .ok

theorem PatternPart.explains_readIfAny (closing : TokenKind) (h : rest <:+ tokens) :
    Explains tokens (PatternPart.readIfAny closing rest) := by
  unfold PatternPart.readIfAny
  split
  · split
    · exact .ok
    · rename_i hclosing
      refine .mismatch (List.cons_ne_nil _ _) fun hmem => hclosing ?_
      have hmem : TokenKind.endOfInput ∈ [.text, .expressionOpen, closing] := hmem
      simpa [eq_comm] using hmem
  · split
    · exact .ok
    · rename_i htext
      split
      · exact (PatternPart.explains_readPlaceholder horderly h).map
      · rename_i hopening
        split
        · exact .ok
        · rename_i hclosing
          refine .mismatch (List.cons_ne_nil _ _) fun hmem => ?_
          simp_all [kindAhead]

theorem Pattern.explains_read (closing : TokenKind) (h : rest <:+ tokens) :
    Explains tokens (Pattern.read closing rest) :=
  .many (PatternPart.staysIn_readIfAny closing)
    (fun _ => PatternPart.explains_readIfAny horderly closing) h

theorem Pattern.explains_readQuoted (h : rest <:+ tokens) :
    Explains tokens (Pattern.readQuoted rest) := by
  refine (explains_expect .patternOpen nofun rest).bind fun opening hopening => ?_
  have hinside := ((staysIn_expect _ _).1 _ hopening).trans h
  refine (Pattern.explains_read horderly .patternClose hinside).bind fun _ _ => ?_
  exact (explains_expect .patternClose nofun _).bind fun _ _ => .ok

omit horderly in
theorem VariantKey.explains_read (rest : List Token) : Explains tokens (VariantKey.read rest) := by
  unfold VariantKey.read
  split
  · exact .mismatch (List.cons_ne_nil _ _) (by decide)
  · split
    · exact .ok
    · rename_i hnone
      exact .mismatch (List.cons_ne_nil _ _) (kind_notMem_of_ofToken? hnone)

theorem VariantKey.explains_readIfAny (h : rest <:+ tokens) :
    Explains tokens (VariantKey.readIfAny rest) := by
  unfold VariantKey.readIfAny
  split
  · exact .mismatch (List.cons_ne_nil _ _) (by decide)
  · split
    · exact (explains_requireSeparator horderly h).bind fun _ _ => .ok
    · rename_i hnone
      split
      · exact .ok
      · rename_i hopening
        refine .mismatch (List.cons_ne_nil _ _) fun hmem => ?_
        rcases List.mem_append.1 hmem with hmem | hmem
        · exact kind_notMem_of_ofToken? hnone hmem
        · exact hopening (List.mem_singleton.1 hmem)

theorem Variant.explains_read (h : rest <:+ tokens) : Explains tokens (Variant.read rest) := by
  refine (VariantKey.explains_read rest).bind fun key hkey => ?_
  have hbehind := ((VariantKey.staysIn_read _).1 _ hkey).trans h
  refine (Explains.many VariantKey.staysIn_readIfAny
    (fun _ => VariantKey.explains_readIfAny horderly) hbehind).bind fun keys hkeys => ?_
  have hlater := ((StaysIn.many VariantKey.staysIn_readIfAny _).1 _ hkeys).trans hbehind
  exact (Pattern.explains_readQuoted horderly ((skipBlank_suffix _).trans hlater)).bind
    fun _ _ => .ok

theorem Variant.explains_readIfAny (h : rest <:+ tokens) :
    Explains tokens (Variant.readIfAny rest) := by
  unfold Variant.readIfAny
  split
  · exact .ok
  · exact (Variant.explains_read horderly ((skipBlank_suffix rest).trans h)).map

theorem Matcher.explains_readBehind (h : rest <:+ tokens) :
    Explains tokens (Matcher.readBehind rest) := by
  refine (explains_expressions horderly h).bind ?_
  rintro ⟨selectors, behind⟩ hselectors
  have hbehind : behind <:+ tokens :=
    ((StaysIn.many Expression.staysIn_readIfAny _).1 _ hselectors).trans h
  dsimp only
  split
  · refine .mismatch_bind (List.cons_ne_nil _ _) fun hmem => ?_
    exact Expression.kindAhead_of_none (item_of_many hselectors) (List.mem_singleton.1 hmem)
  · refine (Explains.many Variant.staysIn_readIfAny
      (fun _ => Variant.explains_readIfAny horderly) hbehind).bind ?_
    rintro ⟨variants, last⟩ hvariants
    dsimp only
    split
    · refine .mismatch_bind (List.cons_ne_nil _ _) ?_
      rw [Variant.skipBlank_of_none (item_of_many hvariants)]
      decide
    · exact .ok

/-! ### Declarations and messages -/

theorem Declaration.explains_readInput (h : rest <:+ tokens) :
    Explains tokens (Declaration.readInput rest) := by
  refine (explains_expect .expressionOpen nofun _).bind fun _ _ => ?_
  refine (explains_expect .variableName nofun _).bind fun _ _ => ?_
  exact (Expression.explains_read horderly ((skipBlank_suffix rest).trans h)).bind fun _ _ => .ok

theorem Declaration.explains_readAssign (h : rest <:+ tokens) :
    Explains tokens (Declaration.readAssign rest) := by
  refine (explains_requireSeparator horderly h).bind fun _ _ => ?_
  refine (explains_expect .variableName nofun _).bind fun variable' hvariable => ?_
  have hbehind := ((staysIn_expect _ _).1 _ hvariable).trans ((skipBlank_suffix rest).trans h)
  refine (explains_expect .equals nofun _).bind fun equals hequals => ?_
  have hvalue := ((staysIn_expect _ _).1 _ hequals).trans ((skipBlank_suffix _).trans hbehind)
  exact (Expression.explains_read horderly ((skipBlank_suffix _).trans hvalue)).bind
    fun _ _ => .ok

theorem Declaration.explains_readReserved (keyword : String) (h : rest <:+ tokens) :
    Explains tokens (Declaration.readReserved keyword rest) := by
  have hbody := (readBody_suffix rest).trans h
  refine (explains_expressions horderly hbody).bind fun ⟨expressions, behind⟩ hexpressions => ?_
  dsimp only
  split
  · refine .mismatch_bind (List.cons_ne_nil _ _) fun hmem => ?_
    exact Expression.kindAhead_of_none (item_of_many hexpressions) (List.mem_singleton.1 hmem)
  · exact .ok

theorem Declaration.explains_readIfAny (h : rest <:+ tokens) :
    Explains tokens (Declaration.readIfAny rest) := by
  unfold Declaration.readIfAny
  split
  · exact .ok
  · rename_i token behind hskip
    have hbehind := (suffix_of_skipBlank hskip).trans h
    split
    · exact (Declaration.explains_readInput horderly hbehind).map
    · exact (Declaration.explains_readAssign horderly hbehind).map
    · exact (Declaration.explains_readReserved horderly token.value hbehind).map
    · exact .ok

/-- Behind the declarations stands none of the kinds that begin one. -/
theorem MessageBody.explains_read (h : rest <:+ tokens)
    (hdeclaration : kindAhead rest ∉ declarationKinds) :
    Explains tokens (MessageBody.read rest) := by
  cases rest with
  | nil => exact .mismatch (List.cons_ne_nil _ _) (by decide)
  | cons token rest =>
    have hrest := (List.suffix_cons token rest).trans h
    unfold MessageBody.read
    dsimp only
    split
    · exact (Matcher.explains_readBehind horderly hrest).bind fun _ _ => .ok
    · exact (Pattern.explains_readQuoted horderly h).bind fun _ _ => .ok
    · rename_i hmatch hopening
      refine .mismatch (List.cons_ne_nil _ _) fun hmem => ?_
      simp_all [kindAhead, declarationKinds, statementKinds]

end Readers

/-- **A mismatch expects something, and not what it found**, unless that is a late directive. -/
theorem Message.explains_read (horderly : Orderly tokens) :
    Explains tokens (Message.read tokens) := by
  unfold Message.read
  split
  · refine (Explains.many Declaration.staysIn_readIfAny
      (fun _ => Declaration.explains_readIfAny horderly) List.suffix_rfl).bind ?_
    rintro ⟨declarations, rest⟩ hdeclarations
    have hrest : rest <:+ tokens :=
      (StaysIn.many Declaration.staysIn_readIfAny _).1 _ hdeclarations
    have hskip := (skipBlank_suffix rest).trans hrest
    have hahead := Declaration.kindAhead_of_none (item_of_many hdeclarations)
    refine (MessageBody.explains_read horderly hskip hahead).bind fun body hbody => ?_
    have hbehind := ((MessageBody.staysIn_read _).1 _ hbody).trans hskip
    exact (explains_expectEnd horderly ((skipBlank_suffix _).trans hbehind)).bind fun _ _ => .ok
  · refine (Pattern.explains_read horderly .endOfInput List.suffix_rfl).bind
      fun pattern hpattern => ?_
    have hbehind := (Pattern.staysIn_read _ _).1 _ hpattern
    exact (explains_expectEnd horderly hbehind).bind fun _ _ => .ok

/-! ### Kinds in words -/

/-- The text names a kind, or it names a kind and quotes a value. -/
def Announces (text name : String) : Prop :=
  text = name ∨ ∃ value, text = name ++ " " ++ quoteText value

/-- All kinds of tokens. -/
def TokenKind.all : List TokenKind :=
  [.text, .expressionOpen, .expressionClose, .patternOpen, .patternClose, .variableName,
    .functionName, .markupOpen, .markupClose, .selfClose, .quotedLiteral, .nameLiteral,
    .numberLiteral, .optionName, .attributeName, .equals, .inputKeyword, .localKeyword,
    .matchKeyword, .reservedKeyword, .catchAll, .blank, .reservedSigil, .reservedText,
    .privateSigil, .endOfInput, .fault]

theorem TokenKind.mem_all (kind : TokenKind) : kind ∈ all := by
  cases kind <;> decide

theorem TokenKind.name_injective : Function.Injective TokenKind.name := by
  have hnodup : (all.map TokenKind.name).Nodup := by decide
  exact fun a b h => List.inj_on_of_nodup_map hnodup a.mem_all b.mem_all h

theorem TokenKind.quote_notMem_name (kind : TokenKind) : '\"' ∉ kind.name.toList := by
  cases kind <;> decide

/-- What is announced is told by what stands before the first quotation mark. -/
theorem takeWhile_of_quoted (kind : TokenKind) (value : String) :
    (kind.name ++ " " ++ quoteText value).toList.takeWhile (· != '\"') =
      kind.name.toList ++ [' '] := by
  have hname : ∀ c ∈ kind.name.toList ++ [' '], (c != '\"') = true := by
    intro c hc
    rcases List.mem_append.1 hc with hc | hc
    · exact bne_iff_ne.2 fun heq => kind.quote_notMem_name (heq ▸ hc)
    · obtain rfl := List.mem_singleton.1 hc
      rfl
  have hspace : " ".toList = [' '] := rfl
  rw [quoteText, String.toList_append, String.toList_append, String.toList_append,
    String.toList_append, hspace, List.append_assoc "\"".toList, List.takeWhile_append_of_pos hname]
  exact List.append_nil _

/-- The name of a kind holds no quotation mark, and so it does not quote a value. -/
theorem TokenKind.name_ne_quoted (kind other : TokenKind) (value : String) :
    kind.name ≠ other.name ++ " " ++ quoteText value := by
  intro heq
  refine kind.quote_notMem_name ?_
  rw [heq, quoteText]
  simp

/-- How a token is described announces its kind and no other. -/
theorem announces_description_iff {token : Token} {kind : TokenKind} :
    Announces token.description kind.name ↔ token.kind = kind := by
  unfold Token.description
  constructor
  · split
    · rintro (hname | ⟨value, hquoted⟩)
      · exact TokenKind.name_injective hname
      · exact absurd hquoted (TokenKind.name_ne_quoted _ _ _)
    · rintro (hname | ⟨value, hquoted⟩)
      · exact absurd hname.symm (TokenKind.name_ne_quoted _ _ _)
      · have h := takeWhile_of_quoted token.kind token.value
        rw [hquoted, takeWhile_of_quoted] at h
        exact TokenKind.name_injective (String.toList_inj.1 (List.append_cancel_right h.symm))
  · rintro rfl
    split
    · exact .inl rfl
    · exact .inr ⟨token.value, rfl⟩

section Sources

variable {source found : String} {e : Error} {expected : List String} {place : Place}

/-- What an error of reading says is what a mismatch says in words. -/
theorem exists_mismatch_of_parse (h : parse source = .error e)
    (hcause : e.cause = .unexpected expected found place) :
    ∃ init last m token, tokenizeAll source = init ++ [last] ∧ Orderly init ∧
      Message.read init = .error m ∧ token.kind = m.foundKind ∧ (∀ other ∈ m.found, other = token) ∧
        expected = m.expected.map TokenKind.name ∧ found = token.description ∧
          place = token.span.place source := by
  cases htokens : tokenize source with
  | error fault =>
    -- a fault is no mismatch
    obtain ⟨last, -, -, rfl⟩ := tokenize_eq_error_iff.1 htokens
    rw [parse, htokens] at h
    cases h
    cases hcause
  | ok tokens =>
    obtain ⟨init, last, rfl, hinit, horderly⟩ := orderly_of_tokenize htokens
    replace h : Message.ofTokens source (init ++ [last]) = .error e := by
      rwa [parse, htokens] at h
    cases hread : Message.read init with
    | ok message =>
      rw [Message.ofTokens, hinit, hread] at h
      cases h
    | error m =>
      rw [Message.ofTokens, hinit, hread] at h
      cases h
      replace hcause : ((m.found.getD (Message.endToken source (init ++ [last]))).unexpected
          m.expected source).cause = .unexpected expected found place := hcause
      rw [Token.unexpected] at hcause
      split at hcause
      · cases hcause
      cases hcause
      refine ⟨init, last, m, _, (tokenize_eq_ok_iff.1 htokens).1.symm, horderly, hread, ?_, ?_, rfl,
        rfl, rfl⟩
      · rw [Mismatch.foundKind]
        cases m.found with
        | none => exact Message.kind_endToken source _
        | some token => rfl
      · rintro other hother
        rw [Option.mem_def.1 hother]
        rfl

/-- At a place of the source there is a directive, of the description `found`, behind the attributes
of an expression that has an operand and no directive. -/
def FindsLate (source found : String) (place : Place) : Prop :=
  ∃ front middle token behind, tokenizeAll source = front ++ (middle ++ token :: behind) ∧
    Undirected middle ∧ token.kind.beginsDirective = true ∧ found = token.description ∧
      place = token.span.place source

/-- **An error of reading names what could have followed, and that is not what it found.**  Only
where a directive stands behind attributes is it expected and found fault with at the same time. -/
theorem expected_of_parse (h : parse source = .error e)
    (hcause : e.cause = .unexpected expected found place) : expected ≠ [] ∧
      ((∃ name ∈ expected, Announces found name) ↔
        expected = lateKinds.map TokenKind.name ∧ FindsLate source found place) := by
  obtain ⟨init, last, m, token, htokens, horderly, hread, hkind, hfound, rfl, rfl, rfl⟩ :=
    exists_mismatch_of_parse h hcause
  obtain ⟨hne, hlate⟩ := Message.explains_read horderly m hread
  refine ⟨fun hnil => hne (List.map_eq_nil_iff.1 hnil), ?_, ?_⟩
  · rintro ⟨name, hname, hannounces⟩
    obtain ⟨kind, hmem, rfl⟩ := List.mem_map.1 hname
    rw [announces_description_iff, hkind] at hannounces
    obtain ⟨hexpected, front, middle, other, behind, hsplit, hmiddle, hdirective, hother⟩ :=
      hlate (hannounces ▸ hmem)
    obtain rfl := hfound other hother
    refine ⟨by rw [hexpected], front, middle, other, behind ++ [last], ?_, hmiddle, hdirective,
      rfl, rfl⟩
    rw [htokens, hsplit]
    simp
  · rintro ⟨hexpected, front, middle, other, behind, -, -, hdirective, hother, -⟩
    refine ⟨other.kind.name, ?_, hother ▸ announces_description_iff.2 rfl⟩
    rw [hexpected]
    exact List.mem_map_of_mem (List.mem_append_left _ (TokenKind.beginsDirective_iff.1 hdirective))

end Sources

theorem parse_eq_of_mismatch {source : String} {tokens : List Token} {m : Mismatch}
    (htokens : tokenize source = .ok tokens)
    (hread : Message.read (Message.tokensBeforeEnd tokens) = .error m) :
    parse source = .error (m.toError (Message.endToken source tokens) source) := by
  rw [parse, htokens]
  change Message.ofTokens source tokens = _
  rw [Message.ofTokens, hread]
  rfl

/-- The tokens of an expression without anything in it. -/
def hollowTokens : List Token :=
  [⟨.expressionOpen, "\x7b", ⟨0, 1, 1, 1⟩⟩, ⟨.expressionClose, "\x7d", ⟨1, 2, 1, 2⟩⟩,
    ⟨.endOfInput, "", ⟨2, 2, 1, 3⟩⟩]

/-- What is wrong with an expression without anything in it. -/
def hollowCause : ErrorCause :=
  .unexpected ((operandKinds ++ directiveKinds).map TokenKind.name) "'\x7d'" ⟨1, 2, "\x7b\x7d"⟩

theorem not_announces_hollow : parse "\x7b\x7d" = .error (.ofCause hollowCause) ∧
    ¬ ∃ name ∈ (operandKinds ++ directiveKinds).map TokenKind.name, Announces "'\x7d'" name := by
  have htokens : tokenize "\x7b\x7d" = .ok hollowTokens := by cbv
  have hread : Message.read (Message.tokensBeforeEnd hollowTokens) =
      .error ⟨operandKinds ++ directiveKinds, hollowTokens[1]?⟩ :=
    congrArg (· >>= _) (many_of_error rfl)
  have hparse : parse "\x7b\x7d" = .error (.ofCause hollowCause) :=
    parse_eq_of_mismatch htokens hread
  refine ⟨hparse, fun h => ?_⟩
  obtain ⟨-, hiff⟩ := expected_of_parse hparse rfl
  exact absurd (hiff.1 h).1 (by decide)

/-- The tokens of an expression whose directive stands behind its attribute. -/
def lateTokens : List Token :=
  [⟨.expressionOpen, "\x7b", ⟨0, 1, 1, 1⟩⟩, ⟨.variableName, "x", ⟨1, 3, 1, 2⟩⟩,
    ⟨.blank, " ", ⟨3, 4, 1, 4⟩⟩, ⟨.attributeName, "a", ⟨4, 6, 1, 5⟩⟩, ⟨.blank, " ", ⟨6, 7, 1, 7⟩⟩,
    ⟨.functionName, "f", ⟨7, 9, 1, 8⟩⟩, ⟨.expressionClose, "\x7d", ⟨9, 10, 1, 10⟩⟩,
    ⟨.endOfInput, "", ⟨10, 10, 1, 11⟩⟩]

theorem exists_announces_late : ∃ e expected found place,
    parse "\x7b$x @a :f\x7d" = .error e ∧ e.cause = .unexpected expected found place ∧
      ∃ name ∈ expected, Announces found name := by
  have htokens : tokenize "\x7b$x @a :f\x7d" = .ok lateTokens := by cbv
  have hattributes : many Attribute.readIfAny Attribute.shortens ((lateTokens.take 7).drop 2) =
      .ok ([⟨.ofText "a", none⟩], (lateTokens.take 7).drop 4) :=
    many_eq_ok_iff.2 (.cons rfl (.nil rfl))
  have hexpression : Expression.read (lateTokens.take 7) = .error ⟨lateKinds, lateTokens[5]?⟩ :=
    bind_eq_error_iff.2 (.inr ⟨_, rfl, bind_eq_error_iff.2 (.inr ⟨_, rfl,
      bind_eq_error_iff.2 (.inr ⟨_, hattributes, rfl⟩)⟩)⟩)
  have hplaceholder : PatternPart.readPlaceholder (lateTokens.take 7) =
      .error ⟨lateKinds, lateTokens[5]?⟩ := bind_eq_error_iff.2 (.inl hexpression)
  have hread : Message.read (Message.tokensBeforeEnd lateTokens) =
      .error ⟨lateKinds, lateTokens[5]?⟩ :=
    congrArg (· >>= _) (many_of_error (congrArg (Except.map some) hplaceholder))
  exact ⟨_, _, _, _, parse_eq_of_mismatch htokens hread, rfl, _, List.mem_cons_self,
    .inr ⟨"f", rfl⟩⟩

end MessageFormat
