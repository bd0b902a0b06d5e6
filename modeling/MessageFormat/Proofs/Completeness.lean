import MessageFormat.Proofs.Soundness

/-!
# What is derived is read

Tokens that derive something are read as that, as long as what stands behind them could not go on
with it.

* `Expression.read_of_derives`, `Markup.read_of_derives` : placeholders, whatever is behind them;
* `Declaration.readIfAny_of_derives`, `Matcher.readBehind_of_derives` : statements;
* `Message.read_of_derivesInner` : messages.
-/

namespace MessageFormat

variable {α : Type}

/-! ### Gaps -/

/-- A token of a class that has no blanks in it. -/
theorem Token.not_isBlank {p : TokenKind → Bool} {token : Token} (hp : p token.kind = true)
    (hblank : p .blank = false) : token.isBlank = false := by
  rw [Token.isBlank, beq_eq_false_iff_ne]
  intro h
  rw [h, hblank] at hp
  cases hp

theorem isBlank_eq_false {token : Token} {kind : TokenKind} (h : token.kind = kind)
    (hkind : kind ≠ .blank) : token.isBlank = false := by
  rw [Token.isBlank, h]
  exact beq_eq_false_iff_ne.2 hkind

theorem skipBlank_gap {gap rest : List Token} {token : Token} (hgap : Gap gap)
    (htoken : token.isBlank = false) : skipBlank (gap ++ token :: rest) = token :: rest := by
  cases hgap with
  | nothing => simp [skipBlank, htoken]
  | blank hblank => simp [skipBlank, hblank]

theorem skipBlank_separator {separator rest : List Token} (h : Separator separator) :
    skipBlank (separator ++ rest) = rest := by
  cases h with
  | space hseparator =>
    rw [Token.isSeparator, Bool.and_eq_true] at hseparator
    simp [skipBlank, hseparator.1]

theorem requireSeparator_separator {separator rest : List Token} (h : Separator separator) :
    requireSeparator (separator ++ rest) = .ok () := by
  cases h with
  | space hseparator => simp [requireSeparator, hseparator]

theorem expect_cons {kind : TokenKind} {token : Token} {rest : List Token}
    (h : token.kind = kind) : expect kind (token :: rest) = .ok (token, rest) :=
  expect_eq_ok_iff.2 ⟨rfl, h⟩

/-- The next token, blanks aside, is of one of the kinds. -/
def NextIs (p : TokenKind → Bool) (tokens : List Token) : Prop :=
  ∃ token rest, skipBlank tokens = token :: rest ∧ p token.kind = true

theorem nextIs_gap {p : TokenKind → Bool} {gap rest : List Token} {token : Token} (hgap : Gap gap)
    (hp : p token.kind = true) (hblank : p .blank = false) : NextIs p (gap ++ token :: rest) :=
  ⟨token, rest, skipBlank_gap hgap (Token.not_isBlank hp hblank), hp⟩

/-- Where an item behind a gap begins with a token of a class, such a token is next. -/
theorem nextIs_behind {p : TokenKind → Bool} {item : List Token → α → Prop}
    {tokens rest : List Token} {a : α} (h : Behind Gap item tokens a)
    (hitem : ∀ {tokens a}, item tokens a → ∃ token later, tokens = token :: later ∧
      p token.kind = true) (hblank : p .blank = false) : NextIs p (tokens ++ rest) := by
  cases h with
  | intro hgap h =>
    obtain ⟨token, later, rfl, hp⟩ := hitem h
    rw [List.append_assoc, List.cons_append]
    exact nextIs_gap hgap hp hblank

theorem nextIs_repeated {p : TokenKind → Bool} {item : List Token → α → Prop}
    {tokens rest : List Token} {as : List α} (h : Repeated (Behind Gap item) tokens as)
    (hne : as ≠ []) (hitem : ∀ {tokens a}, item tokens a → ∃ token later,
      tokens = token :: later ∧ p token.kind = true) (hblank : p .blank = false) :
    NextIs p (tokens ++ rest) := by
  cases h with
  | nil => exact absurd rfl hne
  | cons h _ =>
    rw [List.append_assoc]
    exact nextIs_behind h hitem hblank

theorem NextIs.mono {p q : TokenKind → Bool} {tokens : List Token} (h : NextIs p tokens)
    (hpq : ∀ kind, p kind = true → q kind = true) : NextIs q tokens := by
  obtain ⟨token, rest, hskip, hp⟩ := h
  exact ⟨token, rest, hskip, hpq _ hp⟩

/-! ### Repetition -/

theorem many_of_repeated {item : List Token → Except Mismatch (Option (α × List Token))}
    {shortens : Shortens item} {derives : List Token → α → Prop} (follows : List Token → Prop)
    (hitem : ∀ {tokens a rest}, derives tokens a → Lexed (tokens ++ rest) → follows rest →
      item (tokens ++ rest) = .ok (some (a, rest)))
    (hfollows : ∀ {tokens a rest}, derives tokens a → follows (tokens ++ rest))
    {tokens rest : List Token} {as : List α} (h : Repeated derives tokens as)
    (hlexed : Lexed (tokens ++ rest)) (hrest : follows rest) (hstop : item rest = .ok none) :
    many item shortens (tokens ++ rest) = .ok (as, rest) := by
  rw [many_eq_ok_iff]
  induction h with
  | nil => exact .nil hstop
  | @cons front tokens a as hfront later ih =>
    rw [List.append_assoc] at hlexed ⊢
    -- an item is followed by the next one, or by the rest
    refine .cons (hitem hfront hlexed ?_) (ih hlexed.right)
    cases later with
    | nil => exact hrest
    | cons h _ =>
      rw [List.append_assoc]
      exact hfollows h

/-! ### Operands, options and attributes -/

theorem Operand.read_of_derives {tokens rest : List Token} {operand : Operand}
    (h : Operand.Derives tokens operand) :
    Operand.read (tokens ++ rest) = .ok (operand, rest) := by
  obtain ⟨token, rfl, -⟩ := h.exists_token
  simp only [List.singleton_append, Operand.read, Operand.ofToken?_eq_some_iff.2 h]

theorem Operand.Derives.not_isBlank {token : Token} {operand : Operand}
    (h : Operand.Derives [token] operand) : token.isBlank = false := by
  obtain ⟨other, hother, hkind, -⟩ := h.exists_token
  obtain ⟨rfl, -⟩ := List.cons.inj hother
  refine Token.not_isBlank (p := fun kind => operandKinds.contains kind) ?_ (by decide)
  simpa using hkind

theorem readAssigned_of_assigned {tokens rest : List Token} {value : Operand}
    (h : Assigned tokens value) : readAssigned (tokens ++ rest) = .ok (value, rest) := by
  cases h with
  | @intro before behind inner equals _ hbefore hequals hbehind hvalue =>
    obtain ⟨token, rfl, -⟩ := hvalue.exists_token
    rw [List.append_assoc, List.cons_append, List.append_assoc]
    refine bind_eq_ok_iff.2 ⟨(equals, behind ++ ([token] ++ rest)), ?_, ?_⟩
    · rw [skipBlank_gap hbefore (isBlank_eq_false hequals (by decide))]
      exact expect_cons hequals
    · dsimp only
      rw [List.singleton_append, skipBlank_gap hbehind hvalue.not_isBlank]
      exact Operand.read_of_derives hvalue

theorem NamedOption.readIfAny_of_derives {tokens rest : List Token} {o : NamedOption}
    (h : Behind Separator NamedOption.Derives tokens o) :
    NamedOption.readIfAny (tokens ++ rest) = .ok (some (o, rest)) := by
  cases h with
  | @intro separator _ _ hseparator h =>
    cases h with
    | @intro name assigned value hname hassigned =>
      rw [List.append_assoc]
      simp only [NamedOption.readIfAny, skipBlank_separator hseparator, List.cons_append]
      rw [if_pos hname]
      exact bind_eq_ok_iff.2 ⟨(), requireSeparator_separator hseparator,
        bind_eq_ok_iff.2 ⟨_, readAssigned_of_assigned hassigned, rfl⟩⟩

theorem Assigned.nextIs {tokens rest : List Token} {value : Operand} (h : Assigned tokens value) :
    NextIs (· == .equals) (tokens ++ rest) := by
  cases h with
  | intro hbefore hequals _ _ =>
    rw [List.append_assoc, List.cons_append]
    exact nextIs_gap hbefore (by rw [hequals]; rfl) (by decide)

theorem Attribute.readIfAny_of_derives {tokens rest : List Token} {a : Attribute}
    (h : Behind Separator Attribute.Derives tokens a)
    (hrest : ¬ NextIs (· == .equals) rest) :
    Attribute.readIfAny (tokens ++ rest) = .ok (some (a, rest)) := by
  cases h with
  | @intro separator _ _ hseparator h =>
    rw [List.append_assoc]
    cases h with
    | @bare name hname =>
      have hnext : ¬ (skipBlank rest).head?.any (·.kind = .equals) = true := by
        intro hnext
        cases hskip : skipBlank rest with
        | nil => simp [hskip] at hnext
        | cons token later =>
          refine hrest ⟨token, later, hskip, ?_⟩
          simpa [hskip] using hnext
      simp only [Attribute.readIfAny, skipBlank_separator hseparator, List.cons_append,
        List.nil_append]
      rw [if_pos hname]
      refine bind_eq_ok_iff.2 ⟨(), requireSeparator_separator hseparator, ?_⟩
      rw [if_neg hnext]
      rfl
    | @assigned name assigned value hname hassigned =>
      have hnext : (skipBlank (assigned ++ rest)).head?.any (·.kind = .equals) = true := by
        obtain ⟨token, later, hskip, hkind⟩ : NextIs (· == .equals) (assigned ++ rest) :=
          hassigned.nextIs
        simpa [hskip] using hkind
      simp only [Attribute.readIfAny, skipBlank_separator hseparator, List.cons_append]
      rw [if_pos hname]
      refine bind_eq_ok_iff.2 ⟨(), requireSeparator_separator hseparator, ?_⟩
      rw [if_pos hnext]
      exact bind_eq_ok_iff.2 ⟨_, readAssigned_of_assigned hassigned, rfl⟩

theorem NamedOption.readIfAny_eq_none {p : TokenKind → Bool} {rest : List Token}
    (hrest : NextIs p rest) (hp : p .optionName = false) :
    NamedOption.readIfAny rest = .ok none := by
  obtain ⟨token, later, hskip, hkind⟩ := hrest
  simp only [NamedOption.readIfAny, hskip]
  rw [if_neg]
  intro h
  rw [h, hp] at hkind
  cases hkind

theorem Attribute.readIfAny_eq_none {p : TokenKind → Bool} {rest : List Token}
    (hrest : NextIs p rest) (hp : p .attributeName = false) :
    Attribute.readIfAny rest = .ok none := by
  obtain ⟨token, later, hskip, hkind⟩ := hrest
  simp only [Attribute.readIfAny, hskip]
  rw [if_neg]
  intro h
  rw [h, hp] at hkind
  cases hkind

theorem NextIs.not {p q : TokenKind → Bool} {tokens : List Token} (h : NextIs p tokens)
    (hpq : ∀ kind, p kind = true → q kind = false) : ¬ NextIs q tokens := by
  rintro ⟨token, rest, hskip, hq⟩
  obtain ⟨other, later, hskip', hp⟩ := h
  rw [hskip, List.cons.injEq] at hskip'
  rw [← hskip'.1] at hp
  rw [hpq _ hp] at hq
  cases hq

theorem NamedOptions.read {p : TokenKind → Bool} {tokens rest : List Token}
    {options : List NamedOption} (h : NamedOptions tokens options) (hlexed : Lexed (tokens ++ rest))
    (hrest : NextIs p rest) (hp : p .optionName = false) :
    many NamedOption.readIfAny NamedOption.shortens (tokens ++ rest) = .ok (options, rest) :=
  many_of_repeated (fun _ => True)
    (fun h _ _ => NamedOption.readIfAny_of_derives h) (fun _ => trivial) h hlexed trivial
    (NamedOption.readIfAny_eq_none hrest hp)

/-- What may stand behind the content of an expression: its attributes and its closing brace. -/
def endsContent (kind : TokenKind) : Bool := kind == .attributeName || kind == .expressionClose

theorem Attribute.Derives.nextIs {tokens rest : List Token} {a : Attribute}
    (h : Behind Separator Attribute.Derives tokens a) :
    NextIs (· == .attributeName) (tokens ++ rest) := by
  cases h with
  | @intro separator _ _ hseparator h =>
    rw [List.append_assoc]
    cases h with
    | @bare name hname =>
      exact ⟨name, rest, skipBlank_separator hseparator, by rw [hname]; rfl⟩
    | @assigned name assigned value hname _ =>
      exact ⟨name, assigned ++ rest, skipBlank_separator hseparator, by rw [hname]; rfl⟩

theorem Attributes.nextIs {p : TokenKind → Bool} {tokens rest : List Token}
    {attributes : List Attribute} (h : Attributes tokens attributes) (hrest : NextIs p rest)
    (hp : p .attributeName = true) : NextIs p (tokens ++ rest) := by
  cases h with
  | nil => exact hrest
  | cons h _ =>
    rw [List.append_assoc]
    refine (Attribute.Derives.nextIs h).mono fun kind hkind => ?_
    rw [beq_iff_eq.1 hkind, hp]

theorem Attributes.read {p : TokenKind → Bool} {tokens rest : List Token}
    {attributes : List Attribute} (h : Attributes tokens attributes)
    (hlexed : Lexed (tokens ++ rest)) (hrest : NextIs p rest)
    (hp : p .attributeName = false) (hequals : p .equals = false) :
    many Attribute.readIfAny Attribute.shortens (tokens ++ rest) = .ok (attributes, rest) := by
  refine many_of_repeated (fun rest => ¬ NextIs (· == .equals) rest)
    (fun h _ hrest => Attribute.readIfAny_of_derives h hrest) (fun h => ?_) h hlexed ?_
    (Attribute.readIfAny_eq_none hrest hp)
  · refine (Attribute.Derives.nextIs h).not fun kind hkind => ?_
    rw [beq_iff_eq.1 hkind]
    rfl
  · refine hrest.not fun kind hkind => beq_eq_false_iff_ne.2 ?_
    rintro rfl
    rw [hequals] at hkind
    cases hkind

/-! ### Reserved bodies -/

theorem BodyPieces.isOfBody {tokens : List Token} {pieces : List BodyPiece}
    (h : BodyPieces tokens pieces) : ∀ token ∈ tokens, token.isOfBody = true := by
  induction h with
  | nil => nofun
  | quoted hkind _ ih =>
    exact List.forall_mem_cons.2 ⟨by simp [Token.isOfBody, hkind], ih⟩
  | text _ hrun _ _ ih =>
    refine List.forall_mem_append.2 ⟨fun token htoken => ?_, ih⟩
    have htext : (token.kind == .blank || token.kind == .reservedText) = true := hrun token htoken
    rw [Token.isOfBody, htext]
    rfl

/-- Tokens are those of one list of pieces only. -/
theorem BodyPieces.unique {tokens : List Token} {a b : List BodyPiece} (ha : BodyPieces tokens a)
    (hb : BodyPieces tokens b) : a = b := by
  induction ha generalizing b with
  | nil =>
    generalize htokens : ([] : List Token) = tokens at hb
    cases hb with
    | nil => rfl
    | quoted => cases htokens
    | text hne => exact absurd (List.append_eq_nil_iff.1 htokens.symm).1 hne
  | @quoted token tokens pieces hkind _ ih =>
    generalize htokens : token :: tokens = others at hb
    cases hb with
    | nil => cases htokens
    | quoted _ later =>
      obtain ⟨rfl, rfl⟩ := List.cons.inj htokens
      rw [ih later]
    | @text run _ _ hne hrun =>
      cases run with
      | nil => exact absurd rfl hne
      | cons first run =>
        have := hrun first List.mem_cons_self
        rw [List.cons_append, List.cons.injEq] at htokens
        simp [← htokens.1, Token.isBodyText, Token.isBlank, hkind] at this
  | @text run tokens pieces hne hrun hstop _ ih =>
    generalize htokens : run ++ tokens = others at hb
    cases hb with
    | nil => exact absurd (List.append_eq_nil_iff.1 htokens).1 hne
    | @quoted token _ _ hkind =>
      cases run with
      | nil => exact absurd rfl hne
      | cons first run =>
        have := hrun first List.mem_cons_self
        rw [List.cons_append, List.cons.injEq] at htokens
        simp [htokens.1, Token.isBodyText, Token.isBlank, hkind] at this
    | @text run' tokens' _ _ hrun' hstop' later =>
      have hrun_eq := takeWhile_append_of_stopsAt hrun hstop
      rw [htokens, takeWhile_append_of_stopsAt hrun' hstop'] at hrun_eq
      have htokens_eq := dropWhile_append_of_stopsAt hrun hstop
      rw [htokens, dropWhile_append_of_stopsAt hrun' hstop'] at htokens_eq
      subst hrun_eq htokens_eq
      rw [ih later]

theorem ReservedBody.isOfBody {tokens : List Token} {pieces : List BodyPiece}
    (h : ReservedBody tokens pieces) : ∀ token ∈ tokens, token.isOfBody = true := by
  cases h with
  | nothing => nofun
  | pieces hgap _ _ _ h =>
    refine List.forall_mem_append.2 ⟨?_, h.isOfBody⟩
    cases hgap with
    | nothing => nofun
    | blank hblank =>
      refine List.forall_mem_singleton.2 ?_
      simp [Token.isOfBody, beq_iff_eq.1 hblank]

theorem ReservedBody.not_isBlank_of_last {tokens : List Token} {pieces : List BodyPiece}
    (h : ReservedBody tokens pieces) : ∀ token ∈ tokens.getLast?, token.isBlank = false := by
  cases h with
  | nothing => nofun
  | pieces _ hne _ hlast _ =>
    intro token htoken
    obtain ⟨last, hlast_eq⟩ := Option.ne_none_iff_exists'.1
      (fun h => hne (List.getLast?_eq_none_iff.1 h))
    rw [List.getLast?_append, hlast_eq, Option.some_or, ← hlast_eq] at htoken
    exact hlast token htoken

theorem ReservedBody.bodyPieces {tokens : List Token} {pieces : List BodyPiece}
    (h : ReservedBody tokens pieces) : BodyPieces (tokens.dropWhile Token.isBlank) pieces := by
  cases h with
  | nothing => exact .nil
  | @pieces gap tokens pieces hgap hne hhead _ h =>
    cases tokens with
    | nil => exact absurd rfl hne
    | cons token tokens => rwa [dropWhile_gap hgap (hhead token rfl)]

/-- A reserved body is read up to what cannot belong to it. -/
theorem readBody_of_reservedBody {p : TokenKind → Bool} {tokens rest : List Token}
    {pieces : List BodyPiece} (h : ReservedBody tokens pieces) (hlexed : Lexed (tokens ++ rest))
    (hrest : NextIs p rest)
    (hp : p .blank = false ∧ p .reservedText = false ∧ p .quotedLiteral = false) :
    readBody (tokens ++ rest) = (pieces, rest) := by
  obtain ⟨token, later, hskip, hkind⟩ := hrest
  obtain ⟨gap, hgap, hgaps⟩ := exists_gap rest
  -- the first token that is no blank ends the body, and the blanks before it are not of it
  have htoken : token.isOfBody = false := by
    rw [Token.isOfBody]
    cases hk : token.kind
    case blank | reservedText | quotedLiteral =>
      rw [hk] at hkind
      simp [hp] at hkind
    all_goals rfl
  have hblank : ∀ other ∈ gap, other.isBlank = true := by
    cases hgap with
    | nothing => exact List.forall_mem_nil _
    | blank hblank => exact List.forall_mem_singleton.2 hblank
  have hbody : ∀ other ∈ tokens ++ gap, other.isOfBody = true := by
    refine List.forall_mem_append.2 ⟨h.isOfBody, fun other hother => ?_⟩
    simp [Token.isOfBody, beq_iff_eq.1 (hblank other hother)]
  have hstop : StopsAt Token.isOfBody (token :: later) := stopsAt_cons.2 htoken
  have hpieces : BodyPiece.ofTokens ((tokens ++ gap).dropWhile Token.isBlank) = pieces :=
    (reservedBody_ofTokens hlexed.left h.isOfBody h.not_isBlank_of_last hblank).bodyPieces.unique
      h.bodyPieces
  rw [hskip] at hgaps
  rw [hgaps, ← List.append_assoc]
  simp only [readBody, takeWhile_append_of_stopsAt hbody hstop,
    dropWhile_append_of_stopsAt hbody hstop, hpieces]
  cases hgap with
  | blank hblank => simp [hblank]
  | nothing =>
    rw [List.append_nil]
    cases hlast : tokens.getLast? with
    | none => rfl
    | some last => simp [h.not_isBlank_of_last last hlast]

/-! ### Directives and content -/

theorem Directive.readBehind_of_derives {token : Token} {tokens rest : List Token}
    {directive : Directive} (h : Directive.Derives (token :: tokens) directive)
    (hlexed : Lexed (tokens ++ rest)) (hrest : NextIs endsContent rest) :
    Directive.readBehind token (tokens ++ rest) = .ok (directive, rest) := by
  cases h with
  | function hname hoptions =>
    simp only [Directive.readBehind, hname]
    exact bind_eq_ok_iff.2 ⟨_, hoptions.read hlexed hrest (by decide), rfl⟩
  | reserved htoken hsigil hbody =>
    simp only [Directive.readBehind, htoken]
    rw [readBody_of_reservedBody hbody hlexed hrest (by decide), hsigil]
    simp
  | privateUse htoken hsigil hbody =>
    simp only [Directive.readBehind, htoken]
    rw [readBody_of_reservedBody hbody hlexed hrest (by decide), hsigil]
    simp

theorem not_mem_operandKinds {kind : TokenKind} (h : kind.beginsDirective = true) :
    kind ∉ operandKinds := by
  revert h
  cases kind <;> decide

theorem readContent_of_content {tokens rest : List Token} {operand : Option Operand}
    {directive : Option Directive} (h : Content tokens operand directive)
    (hlexed : Lexed (tokens ++ rest)) (hrest : NextIs endsContent rest) :
    readContent (tokens ++ rest) = .ok ((operand, directive), rest) := by
  cases h with
  | @operand tokens operand h =>
    obtain ⟨token, rfl, -⟩ := h.exists_token
    obtain ⟨next, later, hskip, hnext⟩ := hrest
    have hbegins : next.kind.beginsDirective = false := by
      revert hnext
      cases next.kind <;> decide
    simp only [readContent, List.singleton_append, Operand.ofToken?_eq_some_iff.2 h, hskip,
      hbegins, Bool.false_eq_true, if_false]
  | @directive tokens d h =>
    obtain ⟨token, later, rfl, hbegins⟩ := h.exists_token
    -- what begins a directive is no operand
    have hoperand : Operand.ofToken? token = none := by
      cases hoperand : Operand.ofToken? token with
      | none => rfl
      | some operand =>
        obtain ⟨other, hother, hkind, -⟩ :=
          (Operand.ofToken?_eq_some_iff.1 hoperand).exists_token
        rw [← (List.cons.inj hother).1] at hkind
        exact absurd hkind (not_mem_operandKinds hbegins)
    simp only [readContent, List.cons_append, hoperand, hbegins, if_true]
    exact bind_eq_ok_iff.2 ⟨_, Directive.readBehind_of_derives h hlexed.tail hrest, rfl⟩
  | @both front tokens operand d hoperand h =>
    obtain ⟨token, rfl, -⟩ := hoperand.exists_token
    cases h with
    | @intro separator tokens _ hseparator h =>
      obtain ⟨first, later, rfl, hbegins⟩ := h.exists_token
      rw [List.append_assoc, List.append_assoc] at hlexed ⊢
      simp only [readContent, List.cons_append, List.nil_append,
        Operand.ofToken?_eq_some_iff.2 hoperand, skipBlank_separator hseparator, hbegins, if_true]
      exact bind_eq_ok_iff.2 ⟨(), requireSeparator_separator hseparator, bind_eq_ok_iff.2 ⟨_,
        Directive.readBehind_of_derives h hlexed.right.right.tail hrest, rfl⟩⟩

/-! ### Expressions and markup -/

theorem Expression.read_of_derives {tokens rest : List Token} {e : Expression}
    (h : Expression.Derives tokens e) (hlexed : Lexed (tokens ++ rest)) :
    Expression.read (tokens ++ rest) = .ok (e, rest) := by
  cases h with
  | @intro opening closing gap content rear final operand directive attributes hopening hgap
      hcontent hattributes hfinal hclosing =>
    have hclosed : NextIs (· == .expressionClose) (final ++ closing :: rest) :=
      nextIs_gap hfinal (by rw [hclosing]; rfl) (by decide)
    have hcontents : NextIs endsContent (rear ++ (final ++ closing :: rest)) := by
      refine hattributes.nextIs (hclosed.mono fun kind hkind => ?_) (by decide)
      rw [beq_iff_eq.1 hkind]
      rfl
    have heq : opening :: (gap ++ (content ++ (rear ++ (final ++ [closing])))) ++ rest =
        opening :: (gap ++ (content ++ (rear ++ (final ++ closing :: rest)))) := by simp
    rw [heq] at hlexed ⊢
    obtain ⟨token, later, rfl, hblank, -, -⟩ := hcontent.exists_token
    refine bind_eq_ok_iff.2 ⟨_, expect_cons hopening, ?_⟩
    dsimp only
    rw [List.cons_append, skipBlank_gap hgap hblank, ← List.cons_append]
    refine bind_eq_ok_iff.2 ⟨_, readContent_of_content hcontent hlexed.tail.right hcontents, ?_⟩
    refine bind_eq_ok_iff.2 ⟨_, hattributes.read hlexed.tail.right.right hclosed (by decide)
      (by decide), ?_⟩
    dsimp only
    rw [skipBlank_gap hfinal (isBlank_eq_false hclosing (by decide))]
    simp only [hclosing, if_true]
    rfl

theorem Expression.Derives.exists_opening {tokens : List Token} {e : Expression}
    (h : Expression.Derives tokens e) : ∃ opening inside, tokens = opening :: inside ∧
      opening.kind = .expressionOpen := by
  cases h with
  | intro hopening => exact ⟨_, _, rfl, hopening⟩

theorem Expression.Derives.exists_token {tokens : List Token} {e : Expression}
    (h : Expression.Derives tokens e) : ∃ token later, tokens = token :: later ∧
      (token.kind == .expressionOpen) = true := by
  obtain ⟨opening, inside, rfl, hopening⟩ := h.exists_opening
  exact ⟨opening, inside, rfl, beq_iff_eq.2 hopening⟩

theorem Expression.readIfAny_of_derives {tokens rest : List Token} {e : Expression}
    (h : Behind Gap Expression.Derives tokens e) (hlexed : Lexed (tokens ++ rest)) :
    Expression.readIfAny (tokens ++ rest) = .ok (some (e, rest)) := by
  cases h with
  | @intro gap tokens _ hgap h =>
    obtain ⟨opening, inside, rfl, hopening⟩ := h.exists_opening
    rw [List.append_assoc] at hlexed ⊢
    have hskip : skipBlank (gap ++ (opening :: inside ++ rest)) = opening :: inside ++ rest :=
      skipBlank_gap hgap (isBlank_eq_false hopening (by decide))
    have hhead : (opening :: inside ++ rest).head?.any (·.kind = .expressionOpen) = true := by
      simp [hopening]
    rw [Expression.readIfAny, hskip, if_pos hhead, Expression.read_of_derives h hlexed.right]
    rfl

theorem Expression.readIfAny_eq_none {tokens : List Token}
    (h : ¬ NextIs (· == .expressionOpen) tokens) : Expression.readIfAny tokens = .ok none := by
  rw [Expression.readIfAny, if_neg]
  intro hhead
  cases hskip : skipBlank tokens with
  | nil => simp [hskip] at hhead
  | cons token later => exact h ⟨token, later, hskip, by simpa [hskip] using hhead⟩

theorem many_expressions {tokens rest : List Token} {expressions : List Expression}
    (h : Repeated (Behind Gap Expression.Derives) tokens expressions)
    (hlexed : Lexed (tokens ++ rest)) (hrest : ¬ NextIs (· == .expressionOpen) rest) :
    many Expression.readIfAny Expression.shortens (tokens ++ rest) = .ok (expressions, rest) :=
  many_of_repeated (fun _ => True)
    (fun h hlexed _ => Expression.readIfAny_of_derives h hlexed) (fun _ => trivial) h hlexed trivial
    (Expression.readIfAny_eq_none hrest)

/-- What may stand at the end of markup. -/
def endsMarkup (kind : TokenKind) : Bool := kind == .selfClose || kind == .expressionClose

theorem MarkupEnd.exists_token {name : TokenKind} {tokens : List Token} {kind : MarkupKind}
    (h : MarkupEnd name tokens kind) : ∃ token later, tokens = token :: later ∧
      endsMarkup token.kind = true := by
  cases h with
  | opening h => exact ⟨_, _, rfl, by rw [h]; rfl⟩
  | standalone h _ => exact ⟨_, _, rfl, by rw [h]; rfl⟩
  | closing h => exact ⟨_, _, rfl, by rw [h]; rfl⟩

theorem readMarkupEnd_of_markupEnd {name : Token} {tokens : List Token} {kind : MarkupKind}
    (rest : List Token) (h : MarkupEnd name.kind tokens kind) :
    name.kind.beginsMarkup = true ∧ ∃ standsAlone,
      readMarkupEnd (name.kind == .markupOpen) (tokens ++ rest) = .ok (standsAlone, rest) ∧
        kind = MarkupKind.ofReading (name.kind == .markupOpen) standsAlone := by
  generalize hname : name.kind = opens at h
  cases h with
  | opening h => exact ⟨rfl, false, by simp [readMarkupEnd, h], rfl⟩
  | standalone hslash h => exact ⟨rfl, true, by simp [readMarkupEnd, hslash, h], rfl⟩
  | closing h => exact ⟨rfl, false, by simp [readMarkupEnd, h], rfl⟩

theorem Markup.read_of_derives {tokens rest : List Token} {m : Markup}
    (h : Markup.Derives tokens m) (hlexed : Lexed (tokens ++ rest)) :
    Markup.read (tokens ++ rest) = .ok (m, rest) := by
  cases h with
  | @intro opening name gap front rear final ending kind options attributes hopening hgap hoptions
      hattributes hfinal hending =>
    obtain ⟨hbegins, standsAlone, hread, rfl⟩ := readMarkupEnd_of_markupEnd rest hending
    obtain ⟨token, later, rfl, htoken⟩ := hending.exists_token
    have hclosed : NextIs endsMarkup (final ++ token :: (later ++ rest)) :=
      nextIs_gap hfinal htoken (by decide)
    have hfollowed : NextIs (fun kind => endsMarkup kind || kind == .attributeName)
        (rear ++ (final ++ token :: (later ++ rest))) :=
      hattributes.nextIs (hclosed.mono fun kind hkind => by simp [hkind]) (by decide)
    have heq : opening :: (gap ++ name :: (front ++ (rear ++ (final ++ token :: later)))) ++ rest =
        opening :: (gap ++ name :: (front ++ (rear ++ (final ++ token :: (later ++ rest))))) := by
      simp
    rw [heq] at hlexed ⊢
    have hname : name.isBlank = false := Token.not_isBlank hbegins (by decide)
    refine bind_eq_ok_iff.2 ⟨_, expect_cons hopening, ?_⟩
    dsimp only
    rw [skipBlank_gap hgap hname]
    simp only [hbegins, if_true]
    have hinner := hlexed.tail.right.tail
    refine bind_eq_ok_iff.2 ⟨_, hoptions.read hinner hfollowed (by decide), ?_⟩
    refine bind_eq_ok_iff.2 ⟨_, hattributes.read hinner.right hclosed (by decide) (by decide), ?_⟩
    dsimp only
    rw [skipBlank_gap hfinal (Token.not_isBlank htoken (by decide))]
    exact bind_eq_ok_iff.2 ⟨_, hread, rfl⟩

/-! ### Patterns -/

theorem PatternPart.readPlaceholder_expression {tokens rest : List Token} {e : Expression}
    (h : Expression.Derives tokens e) (hlexed : Lexed (tokens ++ rest)) :
    PatternPart.readPlaceholder (tokens ++ rest) = .ok (.expression e, rest) := by
  have hread := Expression.read_of_derives h hlexed
  cases h with
  | intro hopening hgap hcontent =>
    obtain ⟨token, later, rfl, hblank, hmarkup, -⟩ := hcontent.exists_token
    rw [PatternPart.readPlaceholder, if_neg]
    · exact bind_eq_ok_iff.2 ⟨_, hread, rfl⟩
    · rw [List.cons_append, List.drop_succ_cons, List.drop_zero, List.append_assoc,
        List.cons_append, List.cons_append, dropWhile_gap hgap hblank]
      simp [hmarkup]

theorem PatternPart.readPlaceholder_markup {tokens rest : List Token} {m : Markup}
    (h : Markup.Derives tokens m) (hlexed : Lexed (tokens ++ rest)) :
    PatternPart.readPlaceholder (tokens ++ rest) = .ok (.markup m, rest) := by
  have hread := Markup.read_of_derives h hlexed
  cases h with
  | @intro opening name gap _ _ _ _ _ _ _ hopening hgap _ _ _ hending =>
    obtain ⟨hbegins, -⟩ := readMarkupEnd_of_markupEnd [] hending
    have hname : name.isBlank = false := Token.not_isBlank hbegins (by decide)
    rw [PatternPart.readPlaceholder, if_pos]
    · exact bind_eq_ok_iff.2 ⟨_, hread, rfl⟩
    · rw [List.cons_append, List.drop_succ_cons, List.drop_zero, List.append_assoc,
        List.cons_append, dropWhile_gap hgap hname]
      simp [hbegins]

theorem Markup.Derives.exists_opening {tokens : List Token} {m : Markup}
    (h : Markup.Derives tokens m) : ∃ opening inside, tokens = opening :: inside ∧
      opening.kind = .expressionOpen := by
  cases h with
  | intro hopening => exact ⟨_, _, rfl, hopening⟩

theorem PatternPart.readIfAny_placeholder {closing : TokenKind} {opening : Token}
    {inside rest : List Token} {part : PatternPart} (hopening : opening.kind = .expressionOpen)
    (h : PatternPart.readPlaceholder (opening :: inside) = .ok (part, rest)) :
    PatternPart.readIfAny closing (opening :: inside) = .ok (some (part, rest)) := by
  rw [PatternPart.readIfAny, if_neg (by rw [hopening]; decide), if_pos hopening, h]
  rfl

theorem PatternPart.readIfAny_of_derives {closing : TokenKind} {tokens rest : List Token}
    {part : PatternPart} (h : PatternPart.Derives tokens part) (hlexed : Lexed (tokens ++ rest)) :
    PatternPart.readIfAny closing (tokens ++ rest) = .ok (some (part, rest)) := by
  cases h with
  | text h => rw [List.singleton_append, PatternPart.readIfAny, if_pos h]
  | expression h =>
    have hread := PatternPart.readPlaceholder_expression h hlexed
    obtain ⟨opening, inside, rfl, hopening⟩ := h.exists_opening
    exact PatternPart.readIfAny_placeholder hopening hread
  | markup h =>
    have hread := PatternPart.readPlaceholder_markup h hlexed
    obtain ⟨opening, inside, rfl, hopening⟩ := h.exists_opening
    exact PatternPart.readIfAny_placeholder hopening hread

theorem Pattern.read_of_derives {closing : TokenKind} {tokens rest : List Token}
    {pattern : Pattern} (h : Pattern.Derives tokens pattern) (hlexed : Lexed (tokens ++ rest))
    (hstop : PatternPart.readIfAny closing rest = .ok none) :
    Pattern.read closing (tokens ++ rest) = .ok (pattern, rest) :=
  many_of_repeated (fun _ => True) (fun h hlexed _ => PatternPart.readIfAny_of_derives h hlexed)
    (fun _ => trivial) h hlexed trivial hstop

theorem Pattern.readQuoted_of_derives {tokens rest : List Token} {pattern : Pattern}
    (h : Pattern.DerivesQuoted tokens pattern) (hlexed : Lexed (tokens ++ rest)) :
    Pattern.readQuoted (tokens ++ rest) = .ok (pattern, rest) := by
  cases h with
  | @intro opening closing tokens _ hopening h hclosing =>
    rw [List.cons_append, List.append_assoc, List.singleton_append] at hlexed ⊢
    refine bind_eq_ok_iff.2 ⟨_, expect_cons hopening, ?_⟩
    have hstop : PatternPart.readIfAny .patternClose (closing :: rest) = .ok none := by
      rw [PatternPart.readIfAny, if_neg (by rw [hclosing]; decide),
        if_neg (by rw [hclosing]; decide), if_pos hclosing]
    refine bind_eq_ok_iff.2 ⟨_, Pattern.read_of_derives h hlexed.tail hstop, ?_⟩
    exact bind_eq_ok_iff.2 ⟨_, expect_cons hclosing, rfl⟩

theorem Pattern.DerivesQuoted.exists_opening {tokens : List Token} {pattern : Pattern}
    (h : Pattern.DerivesQuoted tokens pattern) : ∃ opening inside, tokens = opening :: inside ∧
      opening.kind = .patternOpen := by
  cases h with
  | intro hopening => exact ⟨_, _, rfl, hopening⟩

/-! ### Matchers -/

theorem VariantKey.Derives.exists_token {tokens : List Token} {key : VariantKey}
    (h : VariantKey.Derives tokens key) : ∃ token, tokens = [token] ∧ token.kind.isKey = true := by
  cases h with
  | literal h =>
    obtain ⟨token, rfl, hkind⟩ := h.exists_token
    refine ⟨token, rfl, ?_⟩
    revert hkind
    cases token.kind <;> decide
  | @catchAll token hkind => exact ⟨token, rfl, by rw [hkind]; rfl⟩

theorem VariantKey.readIfAny_of_derives {tokens rest : List Token} {key : VariantKey}
    (h : Behind Separator VariantKey.Derives tokens key) :
    VariantKey.readIfAny (tokens ++ rest) = .ok (some (key, rest)) := by
  cases h with
  | @intro separator _ _ hseparator h =>
    obtain ⟨token, rfl, -⟩ := h.exists_token
    rw [List.append_assoc]
    simp only [VariantKey.readIfAny, skipBlank_separator hseparator, List.singleton_append,
      VariantKey.ofToken?_eq_some_iff.2 h]
    exact bind_eq_ok_iff.2 ⟨(), requireSeparator_separator hseparator, rfl⟩

theorem VariantKey.readIfAny_eq_none {tokens : List Token}
    (h : NextIs (· == .patternOpen) tokens) : VariantKey.readIfAny tokens = .ok none := by
  obtain ⟨token, rest, hskip, hkind⟩ := h
  rw [beq_iff_eq] at hkind
  have hkey : VariantKey.ofToken? token = none := by
    simp [VariantKey.ofToken?, Literal.ofToken?, hkind]
  simp only [VariantKey.readIfAny, hskip, hkey, hkind, if_true]

theorem Variant.Derives.exists_token {tokens : List Token} {v : Variant}
    (h : Variant.Derives tokens v) : ∃ token rest, tokens = token :: rest ∧
      token.kind.isKey = true := by
  cases h with
  | intro hkey =>
    obtain ⟨token, rfl, hkind⟩ := hkey.exists_token
    exact ⟨token, _, rfl, hkind⟩

theorem Variant.read_of_derives {tokens rest : List Token} {v : Variant}
    (h : Variant.Derives tokens v) (hlexed : Lexed (tokens ++ rest)) :
    Variant.read (tokens ++ rest) = .ok (v, rest) := by
  cases h with
  | @intro front further gap quoted key keys pattern hkey hkeys hgap hpattern =>
    obtain ⟨opening, inside, rfl, hopening⟩ := hpattern.exists_opening
    have hnext : NextIs (· == .patternOpen) (gap ++ (opening :: inside ++ rest)) :=
      nextIs_gap hgap (by rw [hopening]; rfl) (by decide)
    have hskip : skipBlank (gap ++ (opening :: inside ++ rest)) = opening :: inside ++ rest :=
      skipBlank_gap hgap (isBlank_eq_false hopening (by decide))
    simp only [List.append_assoc] at hlexed ⊢
    have hread : VariantKey.read (front ++ (further ++ (gap ++ (opening :: inside ++ rest)))) =
        .ok (key, further ++ (gap ++ (opening :: inside ++ rest))) := by
      obtain ⟨token, rfl, -⟩ := hkey.exists_token
      simp only [List.singleton_append, VariantKey.read, VariantKey.ofToken?_eq_some_iff.2 hkey]
    refine bind_eq_ok_iff.2 ⟨_, hread, ?_⟩
    refine bind_eq_ok_iff.2 ⟨_, many_of_repeated (fun _ => True)
      (fun h _ _ => VariantKey.readIfAny_of_derives h) (fun _ => trivial) hkeys hlexed.right trivial
      (VariantKey.readIfAny_eq_none hnext), ?_⟩
    dsimp only
    rw [hskip]
    exact bind_eq_ok_iff.2 ⟨_, Pattern.readQuoted_of_derives hpattern hlexed.right.right.right, rfl⟩

theorem Variant.readIfAny_of_derives {tokens rest : List Token} {v : Variant}
    (h : Behind Gap Variant.Derives tokens v) (hlexed : Lexed (tokens ++ rest)) :
    Variant.readIfAny (tokens ++ rest) = .ok (some (v, rest)) := by
  cases h with
  | @intro gap tokens _ hgap h =>
    obtain ⟨token, later, rfl, hkey⟩ := h.exists_token
    rw [List.append_assoc] at hlexed ⊢
    have hskip : skipBlank (gap ++ (token :: later ++ rest)) = token :: later ++ rest :=
      skipBlank_gap hgap (Token.not_isBlank hkey (by decide))
    rw [Variant.readIfAny, hskip, if_neg (by simp), Variant.read_of_derives h hlexed.right]
    rfl

theorem skipBlank_of_gap {gap : List Token} (h : Gap gap) : skipBlank gap = [] := by
  cases h with
  | nothing => rfl
  | blank hblank => simp [skipBlank, hblank]

theorem Matcher.readBehind_of_derives {keyword : Token} {tokens final : List Token} {m : Matcher}
    (h : Matcher.Derives (keyword :: tokens) m) (hlexed : Lexed (tokens ++ final))
    (hfinal : Gap final) : Matcher.readBehind (tokens ++ final) = .ok (m, final) := by
  generalize htokens : keyword :: tokens = all at h
  cases h with
  | @intro _ front rear selectors variants _ hselectors hselected hvariants hvaried =>
    obtain ⟨rfl, rfl⟩ := List.cons.inj htokens
    rw [List.append_assoc] at hlexed ⊢
    -- a variant begins with a key, so that there is no further selector
    have hnext : NextIs TokenKind.isKey (rear ++ final) :=
      nextIs_repeated hvariants hvaried Variant.Derives.exists_token (by decide)
    have hstop : ¬ NextIs (· == .expressionOpen) (rear ++ final) := by
      refine hnext.not fun kind hkind => ?_
      revert hkind
      cases kind <;> decide
    have hend : Variant.readIfAny final = .ok none := by
      rw [Variant.readIfAny, skipBlank_of_gap hfinal]
      rfl
    refine bind_eq_ok_iff.2 ⟨_, many_expressions hselectors hlexed hstop, ?_⟩
    dsimp only
    rw [if_neg (by simpa using hselected)]
    refine bind_eq_ok_iff.2 ⟨_, many_of_repeated (fun _ => True)
      (fun h hlexed _ => Variant.readIfAny_of_derives h hlexed) (fun _ => trivial) hvariants
      hlexed.right trivial hend, ?_⟩
    dsimp only
    rw [if_neg (by simpa using hvaried)]
    rfl

/-! ### Declarations -/

theorem Expression.Derives.exists_variableName {tokens : List Token} {e : Expression}
    {name : String} (rest : List Token) (h : Expression.Derives tokens e)
    (hoperand : e.operand = some (.variableName name)) : ∃ opening inside token later,
      tokens = opening :: inside ∧ opening.kind = .expressionOpen ∧
        (inside ++ rest).dropWhile Token.isBlank = token :: later ∧
          token.kind = .variableName := by
  have hvariable {token : Token} {operand : Operand} (h : Operand.Derives [token] operand)
      (hoperand : some operand = some (.variableName name)) : token.kind = .variableName := by
    obtain rfl := Option.some.inj hoperand
    cases h with
    | variableName h => exact h
  cases h with
  | @intro _ closing _ _ rear final _ _ _ hopening hgap hcontent =>
    obtain ⟨token, later, rfl, hblank, -⟩ := hcontent.exists_token
    refine ⟨_, _, token, later ++ (rear ++ (final ++ [closing])) ++ rest, rfl, hopening, ?_, ?_⟩
    · rw [List.append_assoc, List.cons_append, List.cons_append, dropWhile_gap hgap hblank]
    · generalize htokens : token :: later = tokens at hcontent
      cases hcontent with
      | operand h =>
        obtain ⟨other, rfl, -⟩ := h.exists_token
        obtain ⟨rfl, -⟩ := List.cons.inj htokens
        exact hvariable h hoperand
      | directive => cases hoperand
      | both h =>
        obtain ⟨other, rfl, -⟩ := h.exists_token
        obtain ⟨rfl, -⟩ := List.cons.inj htokens
        exact hvariable h hoperand

theorem Declaration.Derives.exists_keyword {tokens : List Token} {d : Declaration}
    (h : Declaration.Derives tokens d) : ∃ keyword rest, tokens = keyword :: rest ∧
      keyword.kind.isKeyword = true := by
  cases h with
  | input h => exact ⟨_, _, rfl, by rw [h]; rfl⟩
  | assign h => exact ⟨_, _, rfl, by rw [h]; rfl⟩
  | reserved h => exact ⟨_, _, rfl, by rw [h]; rfl⟩

theorem Declaration.readInput_of_derives {gap inner rest : List Token} {e : Expression}
    {name : String} (hgap : Gap gap) (h : Expression.Derives inner e)
    (hoperand : e.operand = some (.variableName name)) (hlexed : Lexed (gap ++ (inner ++ rest))) :
    Declaration.readInput (gap ++ (inner ++ rest)) = .ok (.input e, rest) := by
  obtain ⟨opening, inside, token, later, rfl, hopening, hinside, hkind⟩ :=
    h.exists_variableName rest hoperand
  have hskip : skipBlank (gap ++ (opening :: inside ++ rest)) = opening :: inside ++ rest :=
    skipBlank_gap hgap (isBlank_eq_false hopening (by decide))
  rw [Declaration.readInput, hskip]
  refine bind_eq_ok_iff.2 ⟨_, expect_cons hopening, ?_⟩
  refine bind_eq_ok_iff.2 ⟨(token, later), expect_eq_ok_iff.2 ⟨hinside, hkind⟩, ?_⟩
  exact bind_eq_ok_iff.2 ⟨_, Expression.read_of_derives h hlexed.right, rfl⟩

theorem Declaration.readAssign_of_derives {separator before behind inner rest : List Token}
    {name equals : Token} {e : Expression} (hseparator : Separator separator)
    (hname : name.kind = .variableName) (hbefore : Gap before) (hequals : equals.kind = .equals)
    (hbehind : Gap behind) (h : Expression.Derives inner e)
    (hlexed : Lexed (separator ++ name :: (before ++ equals :: (behind ++ (inner ++ rest))))) :
    Declaration.readAssign (separator ++ name :: (before ++ equals :: (behind ++
      (inner ++ rest)))) = .ok (.assign name.value e, rest) := by
  obtain ⟨opening, inside, rfl, hopening⟩ := h.exists_opening
  refine bind_eq_ok_iff.2 ⟨(), requireSeparator_separator hseparator, ?_⟩
  rw [skipBlank_separator hseparator]
  refine bind_eq_ok_iff.2 ⟨_, expect_cons hname, ?_⟩
  dsimp only
  rw [skipBlank_gap hbefore (isBlank_eq_false hequals (by decide))]
  refine bind_eq_ok_iff.2 ⟨_, expect_cons hequals, ?_⟩
  dsimp only
  rw [List.cons_append, skipBlank_gap hbehind (isBlank_eq_false hopening (by decide))]
  exact bind_eq_ok_iff.2 ⟨_, Expression.read_of_derives h hlexed.right.tail.right.tail.right, rfl⟩

theorem Declaration.readReserved_of_derives {front rear rest : List Token} (keyword : String)
    {body : List BodyPiece} {expressions : List Expression} (hbody : ReservedBody front body)
    (hexpressions : Repeated (Behind Gap Expression.Derives) rear expressions)
    (hne : expressions ≠ []) (hlexed : Lexed (front ++ (rear ++ rest)))
    (hrest : ¬ NextIs (· == .expressionOpen) rest) :
    Declaration.readReserved keyword (front ++ (rear ++ rest)) =
      .ok (.reserved ⟨keyword, body, expressions⟩, rest) := by
  have hnext : NextIs (· == .expressionOpen) (rear ++ rest) :=
    nextIs_repeated hexpressions hne Expression.Derives.exists_token (by decide)
  rw [Declaration.readReserved, readBody_of_reservedBody hbody hlexed hnext (by decide)]
  refine bind_eq_ok_iff.2 ⟨_, many_expressions hexpressions hlexed.right hrest, ?_⟩
  dsimp only
  rw [if_neg (by simpa using hne)]
  rfl

/-- The keyword tells which of the statements is read. -/
theorem Declaration.read_of_derives {keyword : Token} {tokens rest : List Token} {d : Declaration}
    (h : Declaration.Derives (keyword :: tokens) d) (hlexed : Lexed (tokens ++ rest))
    (hrest : ¬ NextIs (· == .expressionOpen) rest) :
    (match keyword.kind with
      | .inputKeyword => (Declaration.readInput (tokens ++ rest)).map some
      | .localKeyword => (Declaration.readAssign (tokens ++ rest)).map some
      | .reservedKeyword => (Declaration.readReserved keyword.value (tokens ++ rest)).map some
      | _ => .ok none) = .ok (some (d, rest)) := by
  generalize htokens : keyword :: tokens = all at h
  cases h with
  | input hkeyword hgap h hoperand =>
    obtain ⟨rfl, rfl⟩ := List.cons.inj htokens
    rw [List.append_assoc] at hlexed ⊢
    rw [hkeyword]
    dsimp only
    rw [Declaration.readInput_of_derives hgap h hoperand hlexed]
    rfl
  | assign hkeyword hseparator hname hbefore hequals hbehind h =>
    obtain ⟨rfl, rfl⟩ := List.cons.inj htokens
    simp only [List.append_assoc, List.cons_append] at hlexed ⊢
    rw [hkeyword]
    dsimp only
    rw [Declaration.readAssign_of_derives hseparator hname hbefore hequals hbehind h hlexed]
    rfl
  | reserved hkeyword hbody hexpressions hne =>
    obtain ⟨rfl, rfl⟩ := List.cons.inj htokens
    rw [List.append_assoc] at hlexed ⊢
    rw [hkeyword]
    dsimp only
    rw [Declaration.readReserved_of_derives keyword.value hbody hexpressions hne hlexed hrest]
    rfl

theorem Declaration.readIfAny_of_derives {tokens rest : List Token} {d : Declaration}
    (h : Behind Gap Declaration.Derives tokens d) (hlexed : Lexed (tokens ++ rest))
    (hrest : ¬ NextIs (· == .expressionOpen) rest) :
    Declaration.readIfAny (tokens ++ rest) = .ok (some (d, rest)) := by
  cases h with
  | @intro gap tokens _ hgap h =>
    obtain ⟨keyword, later, rfl, hkeyword⟩ := h.exists_keyword
    have hblank : keyword.isBlank = false := Token.not_isBlank hkeyword (by decide)
    rw [List.append_assoc, List.cons_append] at hlexed ⊢
    simp only [Declaration.readIfAny, skipBlank_gap hgap hblank]
    exact Declaration.read_of_derives h hlexed.right.tail hrest

theorem Declaration.nextIs_of_derives {tokens rest : List Token} {d : Declaration}
    (h : Behind Gap Declaration.Derives tokens d) :
    NextIs TokenKind.isKeyword (tokens ++ rest) :=
  nextIs_behind h Declaration.Derives.exists_keyword (by decide)

/-- What a message body may begin with. -/
def beginsBody (kind : TokenKind) : Bool := kind == .matchKeyword || kind == .patternOpen

theorem many_declarations {tokens rest : List Token} {declarations : List Declaration}
    (h : Repeated (Behind Gap Declaration.Derives) tokens declarations)
    (hlexed : Lexed (tokens ++ rest))
    (hrest : NextIs beginsBody rest) :
    many Declaration.readIfAny Declaration.shortens (tokens ++ rest) =
      .ok (declarations, rest) := by
  have hstop : Declaration.readIfAny rest = .ok none := by
    obtain ⟨token, later, hskip, hkind⟩ := hrest
    simp only [Declaration.readIfAny, hskip]
    rw [beginsBody, Bool.or_eq_true, beq_iff_eq, beq_iff_eq] at hkind
    rcases hkind with hkind | hkind
    all_goals rw [hkind]
  refine many_of_repeated (fun rest => ¬ NextIs (· == .expressionOpen) rest)
    Declaration.readIfAny_of_derives (fun h => ?_) h hlexed ?_ hstop
  · refine (Declaration.nextIs_of_derives h).not fun kind hkind => ?_
    revert hkind
    cases kind <;> decide
  · refine hrest.not fun kind hkind => ?_
    revert hkind
    cases kind <;> decide

/-! ### Messages -/

/-- A gap before items and gaps behind them are gaps before the items and one behind them. -/
theorem repeated_behind_of_before {gap : List Token → Prop} {item : List Token → α → Prop}
    {first later : List Token} {as : List α} (hfirst : gap first)
    (h : Repeated (Before item gap) later as) :
    ∃ front final, Repeated (Behind gap item) front as ∧ gap final ∧
      first ++ later = front ++ final := by
  induction h generalizing first with
  | nil => exact ⟨[], first, .nil, hfirst, by simp⟩
  | cons h _ ih =>
    cases h with
    | @intro tokens rear _ hitem hrear =>
      obtain ⟨front, final, hfront, hfinal, heq⟩ := ih hrear
      refine ⟨first ++ tokens ++ front, final, .cons (.intro hfirst hitem) hfront, hfinal, ?_⟩
      rw [List.append_assoc, List.append_assoc, ← heq]
      simp

theorem MessageBody.Derives.exists_token {tokens : List Token} {body : MessageBody}
    (h : MessageBody.Derives tokens body) : ∃ token rest, tokens = token :: rest ∧
      beginsBody token.kind = true := by
  cases h with
  | pattern h =>
    obtain ⟨opening, inside, rfl, hopening⟩ := h.exists_opening
    exact ⟨opening, inside, rfl, by rw [hopening]; rfl⟩
  | matcher h =>
    cases h with
    | intro hkeyword => exact ⟨_, _, rfl, by rw [hkeyword]; rfl⟩

theorem MessageBody.read_of_derives {tokens final : List Token} {body : MessageBody}
    (h : MessageBody.Derives tokens body) (hlexed : Lexed (tokens ++ final)) (hfinal : Gap final) :
    MessageBody.read (tokens ++ final) = .ok (body, final) := by
  cases h with
  | pattern h =>
    have hread := Pattern.readQuoted_of_derives h hlexed
    obtain ⟨opening, inside, rfl, hopening⟩ := h.exists_opening
    simp only [MessageBody.read, List.cons_append, hopening]
    exact bind_eq_ok_iff.2 ⟨_, hread, rfl⟩
  | matcher h =>
    have hkeyword : ∃ keyword rest, tokens = keyword :: rest ∧ keyword.kind = .matchKeyword := by
      cases h with
      | intro hkeyword => exact ⟨_, _, rfl, hkeyword⟩
    obtain ⟨keyword, rest, rfl, hkind⟩ := hkeyword
    simp only [MessageBody.read, List.cons_append, hkind]
    exact bind_eq_ok_iff.2 ⟨_, Matcher.readBehind_of_derives h hlexed.tail hfinal, rfl⟩

theorem beginsComplexMessage_gap {gap rest : List Token} {token : Token} (hgap : Gap gap)
    (htoken : (token.kind.isKeyword || token.kind == .patternOpen) = true) :
    beginsComplexMessage (gap ++ token :: rest) = true := by
  have hblank : token.isBlank = false :=
    Token.not_isBlank (p := fun kind => kind.isKeyword || kind == .patternOpen) htoken (by decide)
  rw [beginsComplexMessage, dropWhile_gap hgap hblank]
  simpa using htoken

theorem Pattern.Derives.not_beginsComplexMessage {tokens : List Token} {p : Pattern}
    (h : Pattern.Derives tokens p) : beginsComplexMessage tokens = false := by
  have hhead {token : Token} {rest : List Token}
      (hkind : token.kind = .text ∨ token.kind = .expressionOpen) :
      beginsComplexMessage (token :: rest) = false := by
    rw [beginsComplexMessage, List.dropWhile_cons_of_neg]
    · rcases hkind with hkind | hkind <;> simp [hkind, TokenKind.isKeyword]
    · rcases hkind with hkind | hkind <;> simp [Token.isBlank, hkind]
  cases h with
  | nil => rfl
  | cons h _ =>
    cases h with
    | text h => exact hhead (.inl h)
    | expression h =>
      obtain ⟨opening, inside, rfl, hopening⟩ := h.exists_opening
      exact hhead (.inr hopening)
    | markup h =>
      obtain ⟨opening, inside, rfl, hopening⟩ := h.exists_opening
      exact hhead (.inr hopening)

/-- **Completeness**: lexed tokens that derive a message are read as it. -/
theorem Message.read_of_derivesInner {tokens : List Token} {m : Message}
    (h : Message.DerivesInner tokens m) (hlexed : Lexed tokens) : Message.read tokens = .ok m := by
  cases h with
  | @simple tokens p h =>
    rw [Message.read, h.not_beginsComplexMessage, if_neg (by decide)]
    rw [← List.append_nil tokens] at hlexed ⊢
    exact bind_eq_ok_iff.2 ⟨_, Pattern.read_of_derives h hlexed rfl, rfl⟩
  | @complex gap front tokens final declarations body hgap hdeclarations hbody hfinal =>
    have hcomplex : beginsComplexMessage (gap ++ (front ++ (tokens ++ final))) = true := by
      cases hdeclarations with
      | nil =>
        obtain ⟨token, rest, rfl, hkind⟩ := hbody.exists_token
        refine beginsComplexMessage_gap hgap ?_
        revert hkind
        cases token.kind <;> decide
      | cons h _ =>
        cases h with
        | intro h _ =>
          obtain ⟨keyword, rest, rfl, hkeyword⟩ := h.exists_keyword
          exact beginsComplexMessage_gap hgap (by rw [hkeyword]; rfl)
    rw [Message.read, hcomplex, if_pos rfl]
    obtain ⟨behind, gap', hbehind, hgap', heq⟩ := repeated_behind_of_before hgap hdeclarations
    rw [← List.append_assoc, heq, List.append_assoc] at hlexed ⊢
    obtain ⟨token, rest, rfl, hkind⟩ := hbody.exists_token
    have hskip : skipBlank (gap' ++ (token :: rest ++ final)) = token :: rest ++ final :=
      skipBlank_gap hgap' (Token.not_isBlank (p := beginsBody) hkind (by decide))
    have hnext : NextIs beginsBody (gap' ++ (token :: rest ++ final)) :=
      nextIs_gap hgap' hkind (by decide)
    refine bind_eq_ok_iff.2 ⟨_, many_declarations hbehind hlexed hnext, ?_⟩
    dsimp only
    rw [hskip]
    refine bind_eq_ok_iff.2 ⟨_, MessageBody.read_of_derives hbody hlexed.right.right hfinal, ?_⟩
    dsimp only
    rw [skipBlank_of_gap hfinal]
    rfl

end MessageFormat
