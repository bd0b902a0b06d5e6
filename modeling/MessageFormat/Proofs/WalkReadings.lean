import MessageFormat.Proofs.WalkSteps

/-!
# Walks are readings

Every part of a message is taken by a walk as it is read from a list of tokens.  There is one lemma
for each reading, with the steps of the walk in a row, and loops go through `mirrors_many` or
`mirrors_collect`.

* `mirrors_expression`, `mirrors_markup`, `mirrors_quotedPattern` : placeholders and patterns;
* `mirrors_matcher`, `skipBlank_of_readBehind` : matchers, behind which there is nothing;
* `mirrors_statements` : the declarations and the body of a message.
-/

namespace MessageFormat

variable {α β : Type} {tape : MarkedTape} {rest : List Token} {token : Token}

/-! ### Items and rounds -/

theorem itemOutcome_bind {x : Except Mismatch α}
    {f : α → Except Mismatch (Option (β × List Token))} {behind : List Token} :
    itemOutcome behind (x >>= f) = x >>= fun a => itemOutcome behind (f a) := by
  cases x <;> rfl

/-- An item that is there if what it consists of is. -/
theorem Mirrors.item {walk : Walk α} {x : Except Mismatch (α × List Token)}
    {behind : List Token} (hx : Mirrors tape rest walk x) :
    Mirrors tape rest (walk >>= fun a => Pure.pure (some a))
      (itemOutcome behind (x.map some)) := by
  have hmap := hx.map some
  cases x <;> exact hmap

/-- What a walk takes is put to the state of a loop that goes on. -/
theorem Mirrors.goesOn {σ : Type} {walk : Walk α} {x : Except Mismatch (α × List Token)}
    {exit : Except Mismatch (β × List Token)} (hx : Mirrors tape rest walk x) (push : α → σ) :
    Mirrors tape rest (walk >>= fun a => Pure.pure (.inl (push a)))
      (roundOutcome push exit (x.map some)) := by
  have hmap := hx.map fun a => (.inl (push a) : σ ⊕ β)
  cases x <;> exact hmap

/-! ### Operands and values -/

theorem mirrors_operand?_of_some {operand : Operand} (h : token :: rest <:+ tape.front)
    (hoperand : Operand.ofToken? token = some operand) :
    Mirrors tape (token :: rest) Walk.operand? (.ok (some operand, rest)) := by
  refine (mirrors_current h).andThen fun h => ?_
  dsimp only [MarkedTape.headOf, List.head?_cons, Option.getD_some]
  rw [hoperand]
  exact (mirrors_advance h).andThen .pure

theorem mirrors_operand?_of_none (h : rest <:+ tape.front)
    (hoperand : ∀ token ∈ rest.head?, Operand.ofToken? token = none) :
    Mirrors tape rest Walk.operand? (.ok (none, rest)) := by
  refine .ofCurrent h ?_ ?_
  · rintro rfl
    have hmark : Operand.ofToken? tape.mark = none := by
      rw [Operand.ofToken?, Literal.ofToken?, tape.kind_mark]
      rfl
    rw [hmark]
    exact .pure h
  · rintro token behind rfl h
    rw [hoperand token rfl]
    exact .pure h

theorem mirrors_value (h : rest <:+ tape.front) :
    Mirrors tape rest Walk.value (Operand.read rest) := by
  cases rest with
  | nil =>
    exact (mirrors_operand?_of_none h nofun).andThen fun h => mirrors_unexpected h
  | cons token behind =>
    rw [Operand.read]
    cases hoperand : Operand.ofToken? token with
    | some operand => exact (mirrors_operand?_of_some h hoperand).andThen fun h => .pure h
    | none =>
      refine (mirrors_operand?_of_none h ?_).andThen fun h => mirrors_unexpected h
      rintro _ ⟨⟩
      exact hoperand

theorem mirrors_assigned (h : rest <:+ tape.front) :
    Mirrors tape rest Walk.assigned (readAssigned rest) := by
  refine (mirrors_takeBlank h).andThen fun h => ?_
  refine (mirrors_demand .equals nofun h).bind fun _ rest h => ?_
  exact (mirrors_takeBlank h).andThen mirrors_value

/-! ### Options and attributes -/

theorem mirrors_namedOption? (h : rest <:+ tape.front) : Mirrors tape rest Walk.namedOption?
    (itemOutcome rest (NamedOption.readIfAny rest)) := by
  refine (mirrors_takeBlank h).andThen fun hbehind => .ofCurrent hbehind ?_ ?_
  · intro hskip
    rw [if_neg (tape.kind_mark_ne .optionName nofun), NamedOption.readIfAny, hskip]
    exact (mirrors_putBack h hskip).andThen .pure
  · intro token behind hskip hbehind
    rw [NamedOption.readIfAny, hskip]
    dsimp only
    by_cases hkind : token.kind = .optionName
    · rw [if_pos hkind, if_pos hkind, itemOutcome_bind]
      refine mirrors_demandSpace h hskip ((mirrors_advance hbehind).andThen fun hrest => ?_)
      rw [itemOutcome_bind]
      exact (mirrors_assigned hrest).bind fun value left h => .pure h
    · rw [if_neg hkind, if_neg hkind]
      exact (mirrors_putBack h hskip).andThen .pure

theorem mirrors_attributeValue? (h : rest <:+ tape.front) :
    Mirrors tape rest Walk.attributeValue?
      (if (skipBlank rest).head?.any (·.kind = .equals) then
        (readAssigned rest).map fun (value, left) => (some value, left)
      else .ok (none, rest)) := by
  refine (mirrors_takeBlank h).andThen fun hbehind => .ofCurrent hbehind ?_ ?_
  · intro hskip
    rw [if_neg (tape.kind_mark_ne .equals nofun), hskip]
    exact (mirrors_putBack h hskip).andThen .pure
  · intro token behind hskip hbehind
    rw [hskip, List.head?_cons, Option.any_some]
    by_cases hkind : token.kind = .equals
    · rw [if_pos hkind, if_pos (decide_eq_true hkind), readAssigned, hskip, expect, if_pos hkind]
      refine (mirrors_advance hbehind).andThen fun h => (mirrors_takeBlank h).andThen fun h => ?_
      exact (mirrors_value h).map some
    · rw [if_neg hkind, if_neg (by rwa [decide_eq_true_iff])]
      exact (mirrors_putBack h hskip).andThen .pure

theorem mirrors_attribute? (h : rest <:+ tape.front) : Mirrors tape rest Walk.attribute?
    (itemOutcome rest (Attribute.readIfAny rest)) := by
  refine (mirrors_takeBlank h).andThen fun hbehind => .ofCurrent hbehind ?_ ?_
  · intro hskip
    rw [if_neg (tape.kind_mark_ne .attributeName nofun), Attribute.readIfAny, hskip]
    exact (mirrors_putBack h hskip).andThen .pure
  · intro token behind hskip hbehind
    rw [Attribute.readIfAny, hskip]
    dsimp only
    by_cases hkind : token.kind = .attributeName
    · rw [if_pos hkind, if_pos hkind, itemOutcome_bind]
      refine mirrors_demandSpace h hskip ((mirrors_advance hbehind).andThen fun hrest => ?_)
      have hvalue := (mirrors_attributeValue? hrest).map fun value =>
        some (⟨.ofText token.value, value⟩ : Attribute)
      split at hvalue
      · rename_i hequals
        rw [if_pos hequals, itemOutcome_bind]
        generalize readAssigned behind = outcome at hvalue
        cases outcome <;> exact hvalue
      · rename_i hequals
        rw [if_neg hequals]
        exact hvalue
    · rw [if_neg hkind, if_neg hkind]
      exact (mirrors_putBack h hskip).andThen .pure

/-! ### Directives -/

/-- A token of a reserved body, if there is one. -/
def bodyToken? : List Token → Except Mismatch (Option (Token × List Token))
  | [] => .ok none
  | token :: rest => if token.isOfBody then .ok (some (token, rest)) else .ok none

theorem shortens_bodyToken? : Shortens bodyToken? := by
  rintro (_ | ⟨token, behind⟩) a rest h
  · cases h
  · rw [bodyToken?] at h
    split at h
    · cases h
      exact Nat.lt_succ_self _
    · cases h

theorem many_bodyToken? (tokens : List Token) : many bodyToken? shortens_bodyToken? tokens =
    .ok (tokens.takeWhile Token.isOfBody, tokens.dropWhile Token.isOfBody) := by
  induction tokens with
  | nil => exact many_of_none rfl
  | cons token rest ih =>
    rw [List.takeWhile_cons, List.dropWhile_cons]
    by_cases hbody : token.isOfBody = true
    · rw [many_of_some (by rw [bodyToken?, if_pos hbody]), ih, if_pos hbody, if_pos hbody]
      rfl
    · rw [many_of_none (by rw [bodyToken?, if_neg hbody]), if_neg hbody, if_neg hbody]

theorem mirrors_bodyRound (scan : BodyScan) (h : rest <:+ tape.front) :
    Mirrors tape rest (Walk.bodyRound scan)
      (roundOutcome scan.push (.ok (scan, rest)) (bodyToken? rest)) := by
  refine .ofCurrent h ?_ ?_
  · rintro rfl
    have hmark : tape.mark.isOfBody = false := by
      rw [Token.isOfBody, tape.kind_mark]
      rfl
    rw [BodyScan.push?_eq, hmark]
    exact .pure h
  · rintro token behind rfl h
    rw [BodyScan.push?_eq, bodyToken?]
    by_cases hbody : token.isOfBody = true
    · rw [if_pos hbody, if_pos hbody]
      exact (mirrors_advance h).andThen .pure
    · rw [if_neg hbody, if_neg hbody]
      exact .pure h

theorem mirrors_body (h : rest <:+ tape.front) :
    Mirrors tape rest Walk.body (.ok (readBody rest)) := by
  have hall : (rest.takeWhile Token.isOfBody).all Token.isOfBody = true := List.all_takeWhile
  have hsuffix := (readBody_suffix rest).trans h
  have hloop := mirrors_loop shortens_bodyToken? BodyScan.push (fun scan left => .ok (scan, left))
    (fun scan _ h => mirrors_bodyRound scan h) .start h
  rw [many_bodyToken?] at hloop
  refine hloop.andThen fun h => ?_
  rw [BodyScan.isBehindBlank_foldl_push hall, readBody, BodyScan.start,
    BodyScan.pieces_foldl_push hall]
  rw [readBody] at hsuffix
  dsimp only at hsuffix ⊢
  cases hlast : (rest.takeWhile Token.isOfBody).getLast? with
  | none => exact .pure h
  | some last =>
    rw [hlast] at hsuffix
    rw [Option.any_some]
    dsimp only at hsuffix ⊢
    by_cases hblank : last.isBlank = true
    · rw [if_pos hblank] at hsuffix
      rw [if_pos hblank, if_pos hblank]
      exact (mirrors_backUp hsuffix).andThen .pure
    · rw [if_neg hblank, if_neg hblank]
      exact .pure h

theorem kind_of_beginsDirective {kind : TokenKind} (h : kind.beginsDirective = true) :
    kind = .functionName ∨ kind = .reservedSigil ∨ kind = .privateSigil := by
  cases kind <;> simp_all [TokenKind.beginsDirective]

theorem mirrors_directive (h : token :: rest <:+ tape.front)
    (hbegins : token.kind.beginsDirective = true) :
    Mirrors tape (token :: rest) Walk.directive (Directive.readBehind token rest) := by
  refine (mirrors_current h).andThen fun h => (mirrors_advance h).andThen fun h => ?_
  dsimp only [MarkedTape.headOf, List.head?_cons, Option.getD_some]
  rw [Directive.readBehind]
  rcases kind_of_beginsDirective hbegins with hkind | hkind | hkind <;> rw [hkind]
  · exact (mirrors_many NamedOption.shortens (fun _ => mirrors_namedOption?) h).bind
      fun options left h => .pure h
  · exact (mirrors_body h).andThen fun h => .pure h
  · exact (mirrors_body h).andThen fun h => .pure h

/-! ### Expressions -/

theorem beginsDirective_mark : tape.mark.kind.beginsDirective = false := by
  rw [tape.kind_mark]
  rfl

theorem mirrors_content (h : rest <:+ tape.front) :
    Mirrors tape rest Walk.content (readContent rest) := by
  cases rest with
  | nil =>
    refine (mirrors_operand?_of_none h nofun).andThen fun h => .ofCurrent h ?_ nofun
    intro
    rw [beginsDirective_mark]
    exact mirrors_unexpected h
  | cons token behind =>
    rw [readContent]
    cases hoperand : Operand.ofToken? token with
    | some operand =>
      refine (mirrors_operand?_of_some h hoperand).andThen fun hrest => ?_
      refine (mirrors_takeBlank hrest).andThen fun hbehind => .ofCurrent hbehind ?_ ?_
      · intro hskip
        rw [beginsDirective_mark, hskip]
        exact (mirrors_putBack hrest hskip).andThen .pure
      · intro next later hskip hlater
        dsimp only
        rw [hskip]
        dsimp only
        by_cases hbegins : next.kind.beginsDirective = true
        · rw [if_pos hbegins, if_pos hbegins]
          refine mirrors_demandSpace hrest hskip ?_
          exact (mirrors_directive hlater hbegins).bind fun directive left h => .pure h
        · rw [if_neg hbegins, if_neg hbegins]
          exact (mirrors_putBack hrest hskip).andThen .pure
    | none =>
      have hnone : ∀ first ∈ (token :: behind).head?, Operand.ofToken? first = none := by
        rintro _ ⟨⟩
        exact hoperand
      refine (mirrors_operand?_of_none h hnone).andThen fun h => (mirrors_current h).andThen
        fun h => ?_
      dsimp only [MarkedTape.headOf, List.head?_cons, Option.getD_some]
      by_cases hbegins : token.kind.beginsDirective = true
      · rw [if_pos hbegins, if_pos hbegins]
        exact (mirrors_directive h hbegins).bind fun directive left h => .pure h
      · rw [if_neg hbegins, if_neg hbegins]
        exact mirrors_unexpected h

/-- Reads a closing brace, which is one of the expected kinds and ends what `a` is. -/
def readClose (a : α) (expected : List TokenKind) : List Token → Except Mismatch (α × List Token)
  | [] => mismatch expected []
  | token :: rest =>
    if token.kind = .expressionClose then .ok (a, rest) else mismatch expected (token :: rest)

theorem mirrors_close (a : α) (expected : List TokenKind) (h : rest <:+ tape.front) :
    Mirrors tape rest (Walk.close expected >>= fun _ => pure a) (readClose a expected rest) := by
  have hclose : Mirrors tape rest (Walk.close expected) (readClose () expected rest) := by
    refine .ofCurrent h ?_ ?_
    · rintro rfl
      rw [if_neg (tape.kind_mark_ne .expressionClose nofun)]
      exact mirrors_unexpected h
    · rintro token behind rfl h
      rw [readClose]
      split
      · exact mirrors_advance h
      · exact mirrors_unexpected h
  cases rest with
  | nil => exact hclose.fails
  | cons token behind =>
    rw [readClose] at hclose ⊢
    by_cases hkind : token.kind = .expressionClose
    · rw [if_pos hkind] at hclose ⊢
      exact hclose.andThen .pure
    · rw [if_neg hkind] at hclose ⊢
      exact hclose.fails

theorem mirrors_expression (h : rest <:+ tape.front) :
    Mirrors tape rest Walk.expression (Expression.read rest) := by
  refine (mirrors_demand .expressionOpen nofun h).bind fun _ rest h => ?_
  refine (mirrors_takeBlank h).andThen fun h => (mirrors_content h).bind ?_
  rintro ⟨operand, directive⟩ rest h
  refine (mirrors_many Attribute.shortens (fun _ => mirrors_attribute?) h).bind
    fun attributes rest h => (mirrors_takeBlank h).andThen fun h => ?_
  dsimp only
  exact mirrors_close _ _ h

theorem mirrors_expression? (h : rest <:+ tape.front) : Mirrors tape rest Walk.expression?
    (itemOutcome rest (Expression.readIfAny rest)) := by
  refine (mirrors_takeBlank h).andThen fun hbehind => .ofCurrent hbehind ?_ ?_
  · intro hskip
    rw [if_neg (tape.kind_mark_ne .expressionOpen nofun), Expression.readIfAny, hskip]
    exact (mirrors_putBack h hskip).andThen .pure
  · intro token behind hskip hbehind
    rw [Expression.readIfAny, hskip, List.head?_cons, Option.any_some]
    by_cases hkind : token.kind = .expressionOpen
    · rw [if_pos hkind, if_pos (decide_eq_true hkind)]
      exact (mirrors_expression hbehind).item
    · rw [if_neg hkind, if_neg (by rwa [decide_eq_true_iff])]
      exact (mirrors_putBack h hskip).andThen .pure

/-! ### Markup -/

theorem beginsMarkup_mark : tape.mark.kind.beginsMarkup = false := by
  rw [tape.kind_mark]
  rfl

theorem mirrors_selfClose? (mayStandAlone : Bool) (h : rest <:+ tape.front) :
    Mirrors tape rest (Walk.selfClose? mayStandAlone)
      (.ok (if mayStandAlone && rest.head?.any (·.kind == .selfClose) then (true, rest.tail)
        else (false, rest))) := by
  refine .ofCurrent h ?_ ?_
  · rintro rfl
    have hmark : (tape.mark.kind == .selfClose) = false := by
      rw [tape.kind_mark]
      rfl
    rw [hmark, Bool.and_false, List.head?_nil, Option.any_none, Bool.and_false]
    exact .pure h
  · rintro token behind rfl h
    rw [List.head?_cons, Option.any_some]
    split
    · exact (mirrors_advance h).andThen .pure
    · exact .pure h

theorem mirrors_markupEnd (mayStandAlone : Bool) (h : rest <:+ tape.front) :
    Mirrors tape rest (Walk.markupEnd mayStandAlone) (readMarkupEnd mayStandAlone rest) := by
  have hself := mirrors_selfClose? mayStandAlone h
  unfold readMarkupEnd
  dsimp only
  cases rest with
  | nil =>
    rw [List.head?_nil, Option.any_none, Bool.and_false, if_neg Bool.false_ne_true] at hself
    refine hself.andThen fun h => ?_
    rw [Bool.not_false, Bool.and_true]
    exact mirrors_close false _ h
  | cons token behind =>
    rw [List.head?_cons, Option.any_some] at hself
    dsimp only
    by_cases hslash : (mayStandAlone && token.kind == .selfClose) = true
    · rw [if_pos hslash] at hself ⊢
      refine hself.andThen fun h => ?_
      rw [Bool.not_true, Bool.and_false]
      exact mirrors_close true _ h
    · rw [if_neg hslash] at hself ⊢
      refine hself.andThen fun h => ?_
      rw [Bool.not_false, Bool.and_true]
      exact mirrors_close false _ h

theorem mirrors_markup (h : rest <:+ tape.front) :
    Mirrors tape rest Walk.markup (Markup.read rest) := by
  refine (mirrors_demand .expressionOpen nofun h).bind fun _ rest h => ?_
  refine (mirrors_takeBlank h).andThen fun h => .ofCurrent h ?_ ?_
  · intro hskip
    dsimp only
    rw [beginsMarkup_mark, hskip]
    exact mirrors_unexpected List.nil_suffix
  · intro token behind hskip h
    dsimp only
    rw [hskip]
    dsimp only
    by_cases hbegins : token.kind.beginsMarkup = true
    · rw [if_pos hbegins, if_pos hbegins]
      refine (mirrors_advance h).andThen fun h => ?_
      refine (mirrors_many NamedOption.shortens (fun _ => mirrors_namedOption?) h).bind
        fun options rest h => ?_
      refine (mirrors_many Attribute.shortens (fun _ => mirrors_attribute?) h).bind
        fun attributes rest h => ?_
      refine (mirrors_takeBlank h).andThen fun h => ?_
      exact (mirrors_markupEnd _ h).bind fun standsAlone left h => .pure h
    · rw [if_neg hbegins, if_neg hbegins]
      exact mirrors_unexpected h

/-! ### Patterns -/

theorem mirrors_placeholder (h : token :: rest <:+ tape.front) :
    Mirrors tape (token :: rest) Walk.placeholder
      (PatternPart.readPlaceholder (token :: rest)) := by
  refine (mirrors_advance h).andThen fun hrest => (mirrors_peekNonBlank hrest).andThen
    fun _ => (mirrors_backUp h).andThen fun h => ?_
  have hbegins : (tape.headOf (rest.dropWhile Token.isBlank)).kind.beginsMarkup =
      (rest.dropWhile Token.isBlank).head?.any (·.kind.beginsMarkup) := by
    cases rest.dropWhile Token.isBlank with
    | nil => exact beginsMarkup_mark
    | cons => rfl
  rw [PatternPart.readPlaceholder, List.drop_succ_cons, List.drop_zero, hbegins]
  split
  · exact (mirrors_markup h).bind fun markup left h => .pure h
  · exact (mirrors_expression h).bind fun expression left h => .pure h

theorem mirrors_part? (closing : TokenKind) (h : rest <:+ tape.front) :
    Mirrors tape rest (Walk.part? closing)
      (itemOutcome rest (PatternPart.readIfAny closing rest)) := by
  refine .ofCurrent h ?_ ?_
  · rintro rfl
    rw [if_neg (tape.kind_mark_ne .text nofun), if_neg (tape.kind_mark_ne .expressionOpen nofun),
      tape.kind_mark, PatternPart.readIfAny]
    by_cases hclosing : closing = .endOfInput
    · rw [if_pos hclosing.symm, if_pos hclosing]
      exact .pure h
    · rw [if_neg (fun h => hclosing h.symm), if_neg hclosing]
      exact mirrors_unexpected h
  · rintro token behind rfl h
    rw [PatternPart.readIfAny]
    by_cases htext : token.kind = .text
    · rw [if_pos htext, if_pos htext]
      exact (mirrors_advance h).andThen .pure
    rw [if_neg htext, if_neg htext]
    by_cases hopen : token.kind = .expressionOpen
    · rw [if_pos hopen, if_pos hopen]
      exact (mirrors_placeholder h).item
    rw [if_neg hopen, if_neg hopen]
    by_cases hclosing : token.kind = closing
    · rw [if_pos hclosing, if_pos hclosing]
      exact .pure h
    · rw [if_neg hclosing, if_neg hclosing]
      exact mirrors_unexpected h

theorem mirrors_pattern (closing : TokenKind) (h : rest <:+ tape.front) :
    Mirrors tape rest (Walk.collect (Walk.part? closing) []) (Pattern.read closing rest) :=
  mirrors_many (PatternPart.shortens closing) (fun _ => mirrors_part? closing) h

theorem mirrors_quotedPattern (h : rest <:+ tape.front) :
    Mirrors tape rest Walk.quotedPattern (Pattern.readQuoted rest) := by
  refine (mirrors_demand .patternOpen nofun h).bind fun _ rest h => ?_
  refine (mirrors_pattern .patternClose h).bind fun pattern rest h => ?_
  exact (mirrors_demand .patternClose nofun h).bind fun _ rest h => .pure h

/-! ### Matchers -/

theorem mirrors_key (h : rest <:+ tape.front) :
    Mirrors tape rest Walk.key (VariantKey.read rest) := by
  refine .ofCurrent h ?_ ?_
  · rintro rfl
    have hmark : VariantKey.ofToken? tape.mark = none := by
      rw [VariantKey.ofToken?, Literal.ofToken?, tape.kind_mark]
      rfl
    rw [hmark]
    exact mirrors_unexpected h
  · rintro token behind rfl h
    rw [VariantKey.read]
    cases VariantKey.ofToken? token with
    | some key => exact (mirrors_advance h).andThen .pure
    | none => exact mirrors_unexpected h

theorem isSome_ofToken?_eq (token : Token) :
    (VariantKey.ofToken? token).isSome = keyKinds.contains token.kind := by
  rw [VariantKey.ofToken?, Literal.ofToken?]
  cases token.kind <;> rfl

theorem mirrors_key? (h : rest <:+ tape.front) : Mirrors tape rest Walk.key?
    (itemOutcome (skipBlank rest) (VariantKey.readIfAny rest)) := by
  refine (mirrors_takeBlank h).andThen fun hbehind => .ofCurrent hbehind ?_ ?_
  · intro hskip
    rw [if_neg (tape.kind_mark_ne .patternOpen nofun), VariantKey.readIfAny, hskip, tape.kind_mark]
    exact mirrors_unexpected List.nil_suffix
  · intro token behind hskip hbehind
    rw [VariantKey.readIfAny, hskip, ← isSome_ofToken?_eq]
    dsimp only
    have hread := mirrors_key hbehind
    rw [VariantKey.read] at hread
    cases hkey : VariantKey.ofToken? token with
    | some key =>
      have hkind : token.kind ≠ .patternOpen := by
        intro hkind
        rw [VariantKey.ofToken?, Literal.ofToken?, hkind] at hkey
        cases hkey
      rw [hkey] at hread
      rw [if_neg hkind, Option.isSome_some, if_pos rfl, itemOutcome_bind]
      exact mirrors_demandSpace h hskip (hread.andThen .pure)
    | none =>
      dsimp only
      split
      · exact .pure hbehind
      · exact mirrors_unexpected hbehind

theorem mirrors_variant (h : rest <:+ tape.front) :
    Mirrors tape rest Walk.variant (Variant.read rest) := by
  refine (mirrors_key h).bind fun first rest h => ?_
  refine (mirrors_collect VariantKey.shortens skipBlank (fun _ => mirrors_key?) [first] h).bindMap ?_
  intro keys _ h
  exact (mirrors_quotedPattern h).bind fun pattern left h => .pure h

theorem mirrors_variant? (h : rest <:+ tape.front) : Mirrors tape rest Walk.variant?
    (itemOutcome (skipBlank rest) (Variant.readIfAny rest)) := by
  refine (mirrors_takeBlank h).andThen fun hbehind => .ofCurrent hbehind ?_ ?_
  · intro hskip
    rw [if_pos tape.kind_mark, Variant.readIfAny, hskip]
    exact .pure List.nil_suffix
  · intro token behind hskip hbehind
    rw [if_neg (tape.kind_head_ne hbehind), Variant.readIfAny, hskip]
    exact (mirrors_variant hbehind).item

/-- A matcher is read up to blanks at the end of the tokens, and a walk takes these too. -/
theorem mirrors_matcher (h : token :: rest <:+ tape.front) :
    Mirrors tape (token :: rest) Walk.matcher
      ((Matcher.readBehind rest).map fun (matcher, left) => (matcher, skipBlank left)) := by
  refine (mirrors_advance h).andThen fun h => ?_
  change Mirrors tape _ _ ((fun x => (x.1, skipBlank x.2)) <$> Matcher.readBehind rest)
  rw [Matcher.readBehind, map_bind]
  refine (mirrors_many Expression.shortens (fun _ => mirrors_expression?) h).bind
    fun selectors rest h => ?_
  dsimp only
  cases selectors.isEmpty with
  | true => exact mirrors_unexpected h
  | false =>
    rw [if_neg Bool.false_ne_true, if_neg Bool.false_ne_true, map_bind]
    refine (mirrors_collect Variant.shortens skipBlank (fun _ => mirrors_variant?) [] h).bindMap ?_
    intro variants _ h
    dsimp only at h ⊢
    rw [List.nil_append]
    cases variants.1.isEmpty with
    | true => exact mirrors_unexpected h
    | false => exact .pure h

/-- There is nothing but blanks behind a matcher. -/
theorem skipBlank_of_readBehind {matcher : Matcher} {left : List Token}
    (h : Matcher.readBehind rest = .ok (matcher, left)) : skipBlank left = [] := by
  obtain ⟨⟨selectors, behind⟩, -, h⟩ := bind_eq_ok_iff.1 h
  dsimp only at h
  split at h
  · cases h
  obtain ⟨⟨variants, last⟩, hvariants, h⟩ := bind_eq_ok_iff.1 h
  have hlast := item_of_many hvariants
  dsimp only at h
  split at h
  · cases h
  cases h
  rw [Variant.readIfAny] at hlast
  split at hlast
  · rename_i hempty
    exact List.isEmpty_iff.1 hempty
  · cases hread : Variant.read (skipBlank left) <;> rw [hread] at hlast <;> cases hlast

/-! ### Declarations -/

theorem mirrors_inputDeclaration (h : token :: rest <:+ tape.front) :
    Mirrors tape (token :: rest) Walk.inputDeclaration (Declaration.readInput rest) := by
  refine (mirrors_advance h).andThen fun h => (mirrors_takeBlank h).andThen fun h => ?_
  rw [Declaration.readInput]
  have hopen := mirrors_demand .expressionOpen (by decide) h
  generalize skipBlank rest = behind at *
  cases behind with
  | nil => exact hopen.fails
  | cons first inside =>
    rw [expect] at hopen ⊢
    by_cases hkind : first.kind = .expressionOpen
    · rw [if_pos hkind] at hopen ⊢
      refine hopen.andThen fun hinside => (mirrors_peekNonBlank hinside).andThen
        fun _ => (mirrors_backUp h).andThen fun h => ?_
      have hvariable := (List.dropWhile_suffix Token.isBlank).trans hinside
      change Mirrors tape _ _ (expect .variableName (inside.dropWhile Token.isBlank) >>= fun _ =>
        Expression.read (first :: inside) >>= fun x => pure (Declaration.input x.1, x.2))
      generalize inside.dropWhile Token.isBlank = ahead at hvariable ⊢
      cases ahead with
      | nil =>
        change Mirrors tape _ (if tape.mark.kind = .variableName then _ else _) _
        rw [if_neg (tape.kind_mark_ne .variableName (by decide))]
        exact mirrors_unexpectedAt hvariable
      | cons variableToken ahead =>
        change Mirrors tape _ (if variableToken.kind = .variableName then _ else _) _
        rw [expect]
        by_cases hkind : variableToken.kind = .variableName
        · rw [if_pos hkind, if_pos hkind]
          exact (mirrors_expression h).bind fun expression left h => .pure h
        · rw [if_neg hkind, if_neg hkind]
          exact mirrors_unexpectedAt hvariable
    · rw [if_neg hkind] at hopen ⊢
      exact hopen.fails

theorem mirrors_localDeclaration (h : token :: rest <:+ tape.front) :
    Mirrors tape (token :: rest) Walk.localDeclaration (Declaration.readAssign rest) := by
  refine (mirrors_advance h).andThen fun h => (mirrors_takeBlank h).andThen fun hskip => ?_
  refine mirrors_demandSpace h rfl ?_
  refine (mirrors_demand .variableName nofun hskip).bind fun variableToken rest h => ?_
  refine (mirrors_takeBlank h).andThen fun h => ?_
  refine (mirrors_demand .equals nofun h).bind fun _ rest h => ?_
  refine (mirrors_takeBlank h).andThen fun h => ?_
  exact (mirrors_expression h).bind fun expression left h => .pure h

theorem mirrors_reservedStatement (h : token :: rest <:+ tape.front)
    (hkind : token.kind = .reservedKeyword) :
    Mirrors tape (token :: rest) Walk.reservedStatement
      (Declaration.readReserved token.value rest) := by
  have hkeyword := mirrors_demand .reservedKeyword nofun h
  rw [expect, if_pos hkind] at hkeyword
  refine hkeyword.andThen fun h => (mirrors_body h).andThen fun h => ?_
  refine (mirrors_many Expression.shortens (fun _ => mirrors_expression?) h).bind
    fun expressions rest h => ?_
  dsimp only
  cases expressions.isEmpty with
  | true => exact mirrors_unexpected h
  | false => exact .pure h

/-! ### Messages -/

/-- What is left of tokens behind the body of a message by a walk: a matcher takes blanks with
it. -/
def MessageBody.settle : MessageBody → List Token → List Token
  | .matcher _, left => skipBlank left
  | .pattern _, left => left

theorem mirrors_statementRound (declarations : List Declaration) (h : rest <:+ tape.front) :
    Mirrors tape rest (Walk.statementRound declarations)
      (roundOutcome (fun declaration => declarations ++ [declaration])
        ((MessageBody.read (skipBlank rest)).map fun (body, left) =>
          ((declarations, body), body.settle left))
        (Declaration.readIfAny rest)) := by
  refine (mirrors_takeBlank h).andThen fun hbehind => .ofCurrent hbehind ?_ ?_
  · intro hskip
    rw [Declaration.readIfAny, hskip, tape.kind_mark]
    exact mirrors_unexpected List.nil_suffix
  · intro token behind hskip hbehind
    rw [Declaration.readIfAny, hskip, MessageBody.read]
    dsimp only
    cases hkind : token.kind with
    | inputKeyword => exact (mirrors_inputDeclaration hbehind).goesOn _
    | localKeyword => exact (mirrors_localDeclaration hbehind).goesOn _
    | reservedKeyword => exact (mirrors_reservedStatement hbehind hkind).goesOn _
    | matchKeyword =>
      have hmatcher := mirrors_matcher hbehind
      generalize Matcher.readBehind behind = outcome at hmatcher ⊢
      cases outcome with
      | error m => exact hmatcher.fails
      | ok pair => exact hmatcher.andThen fun h => .pure h
    | patternOpen =>
      have hpattern := mirrors_quotedPattern hbehind
      generalize Pattern.readQuoted (token :: behind) = outcome at hpattern ⊢
      cases outcome with
      | error m => exact hpattern.fails
      | ok pair => exact hpattern.andThen fun h => .pure h
    | _ => exact mirrors_unexpected hbehind

/-- Declarations are taken as they are read, and so is the body behind them. -/
theorem mirrors_statements (h : rest <:+ tape.front) : Mirrors tape rest Walk.statements
    (many Declaration.readIfAny Declaration.shortens rest >>= fun (declarations, left) =>
      (MessageBody.read (skipBlank left)).map fun (body, left) =>
        ((declarations, body), body.settle left)) := by
  have hloop := mirrors_loop Declaration.shortens
    (fun declarations declaration => declarations ++ [declaration])
    (fun declarations left => (MessageBody.read (skipBlank left)).map fun (body, left) =>
      ((declarations, body), body.settle left))
    (fun declarations rest h => mirrors_statementRound declarations h) [] h
  simp only [foldl_snoc, List.nil_append] at hloop
  exact hloop

end MessageFormat
