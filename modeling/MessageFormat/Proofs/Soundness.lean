import MessageFormat.Proofs.Grammar
import MessageFormat.Proofs.Lexed

/-!
# What is read is derived

Each reader takes tokens off the front that derive what it reads, by the productions of the grammar.
The tokens are taken to be lexed: blanks do not stand side by side and are not empty, and a sigil is
one character.

* `Expression.derives_of_read`, `Markup.derives_of_read` : placeholders;
* `Declaration.derives_of_readIfAny`, `Matcher.derives_of_readBehind` : statements;
* `Message.derivesInner_of_read` : messages.
-/

namespace MessageFormat

variable {α : Type}

/-- The front of the tokens, ahead of `rest`, derives `a`. -/
def Derived (derives : List Token → α → Prop) (tokens : List Token) (a : α) (rest : List Token) :
    Prop :=
  ∃ front, tokens = front ++ rest ∧ derives front a

/-! ### Single tokens -/

theorem exists_gap (tokens : List Token) : ∃ gap, Gap gap ∧ tokens = gap ++ skipBlank tokens := by
  cases tokens with
  | nil => exact ⟨[], .nothing, rfl⟩
  | cons token rest =>
    by_cases h : token.isBlank = true
    · exact ⟨[token], .blank h, by simp [skipBlank, h]⟩
    · exact ⟨[], .nothing, by simp [skipBlank, h]⟩

theorem exists_separator {tokens : List Token} (h : requireSeparator tokens = .ok ()) :
    ∃ separator, Separator separator ∧ tokens = separator ++ skipBlank tokens := by
  unfold requireSeparator at h
  split at h
  · rename_i hseparator
    cases tokens with
    | nil => cases hseparator
    | cons token rest =>
      have hseparator : token.isSeparator = true := by simpa using hseparator
      have hblank : token.isBlank = true := by
        rw [Token.isSeparator, Bool.and_eq_true] at hseparator
        exact hseparator.1
      exact ⟨[token], .space hseparator, by simp [skipBlank, hblank]⟩
  · cases h

theorem expect_eq_ok_iff {kind : TokenKind} {tokens rest : List Token} {token : Token} :
    expect kind tokens = .ok (token, rest) ↔ tokens = token :: rest ∧ token.kind = kind := by
  cases tokens with
  | nil => simp [expect, mismatch]
  | cons head tail =>
    simp only [expect]
    split
    · rename_i hkind
      simp only [Except.ok.injEq, Prod.mk.injEq, List.cons.injEq]
      constructor
      · rintro ⟨rfl, rfl⟩
        exact ⟨⟨rfl, rfl⟩, hkind⟩
      · rintro ⟨⟨rfl, rfl⟩, -⟩
        exact ⟨rfl, rfl⟩
    · rename_i hkind
      simp only [mismatch, reduceCtorEq, List.cons.injEq, false_iff, not_and]
      rintro ⟨rfl, -⟩
      exact hkind

/-! ### Literals, operands and keys -/

theorem Literal.ofToken?_eq_some_iff {token : Token} {l : Literal} :
    ofToken? token = some l ↔ Literal.Derives [token] l := by
  constructor
  · intro h
    unfold ofToken? at h
    split at h
    · rename_i hkind
      obtain rfl := Option.some.inj h
      exact .quoted hkind
    · rename_i hkind
      obtain rfl := Option.some.inj h
      exact .name hkind
    · rename_i hkind
      obtain rfl := Option.some.inj h
      exact .number hkind
    · cases h
  · intro h
    cases h with
    | quoted hkind | name hkind | number hkind => simp [ofToken?, hkind]

theorem Operand.ofToken?_eq_some_iff {token : Token} {operand : Operand} :
    ofToken? token = some operand ↔ Operand.Derives [token] operand := by
  unfold ofToken?
  constructor
  · intro h
    split at h
    · rename_i hkind
      obtain rfl := Option.some.inj h
      exact .variableName hkind
    · obtain ⟨l, hl, rfl⟩ := Option.map_eq_some_iff.1 h
      exact .literal (Literal.ofToken?_eq_some_iff.1 hl)
  · intro h
    cases h with
    | variableName hkind => rw [if_pos hkind]
    | literal hl =>
      have hkind : token.kind ≠ .variableName := by
        intro hkind
        cases hl <;> rename_i h <;> rw [hkind] at h <;> cases h
      rw [if_neg hkind, Literal.ofToken?_eq_some_iff.2 hl]
      rfl

theorem VariantKey.ofToken?_eq_some_iff {token : Token} {key : VariantKey} :
    ofToken? token = some key ↔ VariantKey.Derives [token] key := by
  unfold ofToken?
  constructor
  · intro h
    split at h
    · rename_i hkind
      obtain rfl := Option.some.inj h
      exact .catchAll hkind
    · obtain ⟨l, hl, rfl⟩ := Option.map_eq_some_iff.1 h
      exact .literal (Literal.ofToken?_eq_some_iff.1 hl)
  · intro h
    cases h with
    | catchAll hkind => rw [if_pos hkind]
    | literal hl =>
      have hkind : token.kind ≠ .catchAll := by
        intro hkind
        cases hl <;> rename_i h <;> rw [hkind] at h <;> cases h
      rw [if_neg hkind, Literal.ofToken?_eq_some_iff.2 hl]
      rfl

theorem Operand.derives_of_read {tokens rest : List Token} {operand : Operand}
    (h : Operand.read tokens = .ok (operand, rest)) :
    Derived Operand.Derives tokens operand rest := by
  unfold Operand.read at h
  split at h
  · cases h
  · rename_i token behind
    split at h
    · rename_i hoperand
      simp only [Except.ok.injEq, Prod.mk.injEq] at h
      obtain ⟨rfl, rfl⟩ := h
      exact ⟨[token], rfl, Operand.ofToken?_eq_some_iff.1 hoperand⟩
    · cases h

/-! ### Repetition -/

theorem repeated_of_many {item : List Token → Except Mismatch (Option (α × List Token))}
    {shortens : Shortens item} {derives : List Token → α → Prop}
    (hitem : ∀ {tokens a rest}, Lexed tokens → item tokens = .ok (some (a, rest)) →
      Derived derives tokens a rest)
    {tokens rest : List Token} {as : List α} (hlexed : Lexed tokens)
    (h : many item shortens tokens = .ok (as, rest)) :
    Derived (Repeated derives) tokens as rest := by
  have chain := many_eq_ok_iff.1 h
  clear h
  induction chain with
  | nil => exact ⟨[], rfl, .nil⟩
  | cons h _ ih =>
    obtain ⟨front, rfl, hfront⟩ := hitem hlexed h
    obtain ⟨later, rfl, hlater⟩ := ih hlexed.right
    exact ⟨front ++ later, by rw [List.append_assoc], .cons hfront hlater⟩

/-! ### Options and attributes -/

theorem assigned_of_read {tokens rest : List Token} {value : Operand}
    (h : readAssigned tokens = .ok (value, rest)) : Derived Assigned tokens value rest := by
  obtain ⟨⟨equals, middle⟩, hequals, h⟩ := bind_eq_ok_iff.1 h
  obtain ⟨hskip, hkind⟩ := expect_eq_ok_iff.1 hequals
  obtain ⟨before, hbefore, htokens⟩ := exists_gap tokens
  obtain ⟨behind, hbehind, hmiddle⟩ := exists_gap middle
  obtain ⟨front, hfront, hvalue⟩ := Operand.derives_of_read h
  refine ⟨before ++ equals :: (behind ++ front), ?_, .intro hbefore hkind hbehind hvalue⟩
  rw [htokens, hskip, hmiddle, hfront]
  simp

theorem NamedOption.derives_of_readIfAny {tokens rest : List Token} {o : NamedOption}
    (h : NamedOption.readIfAny tokens = .ok (some (o, rest))) :
    Derived (Behind Separator NamedOption.Derives) tokens o rest := by
  unfold NamedOption.readIfAny at h
  split at h
  · cases h
  · rename_i name later hskip
    split at h
    · rename_i hkind
      obtain ⟨_, hrequire, h⟩ := bind_eq_ok_iff.1 h
      obtain ⟨⟨value, last⟩, hassigned, h⟩ := bind_eq_ok_iff.1 h
      simp only [pure, Except.pure, Except.ok.injEq, Option.some.injEq, Prod.mk.injEq] at h
      obtain ⟨rfl, rfl⟩ := h
      obtain ⟨separator, hseparator, htokens⟩ := exists_separator hrequire
      obtain ⟨front, rfl, hfront⟩ := assigned_of_read hassigned
      refine ⟨separator ++ name :: front, ?_, .intro hseparator (.intro hkind hfront)⟩
      rw [htokens, hskip, List.append_assoc]
      rfl
    · cases h

theorem Attribute.derives_of_readIfAny {tokens rest : List Token} {a : Attribute}
    (h : Attribute.readIfAny tokens = .ok (some (a, rest))) :
    Derived (Behind Separator Attribute.Derives) tokens a rest := by
  unfold Attribute.readIfAny at h
  split at h
  · cases h
  · rename_i name later hskip
    split at h
    · rename_i hkind
      obtain ⟨_, hrequire, h⟩ := bind_eq_ok_iff.1 h
      obtain ⟨separator, hseparator, htokens⟩ := exists_separator hrequire
      rw [hskip] at htokens
      split at h
      · obtain ⟨⟨value, last⟩, hassigned, h⟩ := bind_eq_ok_iff.1 h
        simp only [pure, Except.pure, Except.ok.injEq, Option.some.injEq, Prod.mk.injEq] at h
        obtain ⟨rfl, rfl⟩ := h
        obtain ⟨front, rfl, hfront⟩ := assigned_of_read hassigned
        refine ⟨separator ++ name :: front, ?_, .intro hseparator (.assigned hkind hfront)⟩
        rw [htokens, List.append_assoc]
        rfl
      · simp only [pure, Except.pure, Except.ok.injEq, Option.some.injEq, Prod.mk.injEq] at h
        obtain ⟨rfl, rfl⟩ := h
        refine ⟨separator ++ [name], ?_, .intro hseparator (.bare hkind)⟩
        rw [htokens, List.append_assoc]
        rfl
    · cases h

theorem namedOptions_of_many {tokens rest : List Token} {options : List NamedOption}
    (hlexed : Lexed tokens)
    (h : many NamedOption.readIfAny NamedOption.shortens tokens = .ok (options, rest)) :
    Derived NamedOptions tokens options rest :=
  repeated_of_many (fun _ => NamedOption.derives_of_readIfAny) hlexed h

theorem attributes_of_many {tokens rest : List Token} {attributes : List Attribute}
    (hlexed : Lexed tokens)
    (h : many Attribute.readIfAny Attribute.shortens tokens = .ok (attributes, rest)) :
    Derived Attributes tokens attributes rest :=
  repeated_of_many (fun _ => Attribute.derives_of_readIfAny) hlexed h

/-! ### Reserved bodies -/

theorem isBodyText_of_isOfBody {token : Token} (h : token.isOfBody = true)
    (hquoted : token.kind ≠ .quotedLiteral) : token.isBodyText = true := by
  simpa [Token.isOfBody, Token.isBodyText, Token.isBlank, hquoted] using h

theorem not_isBlank_of_quotedLiteral {token : Token} (h : token.kind = .quotedLiteral) :
    token.isBlank = false := by
  rw [Token.isBlank, h]
  rfl

theorem bodyPieces_prepend {token : Token} {tokens : List Token} {pieces : List BodyPiece}
    (htoken : token.isBodyText = true) (h : BodyPieces tokens pieces) :
    BodyPieces (token :: tokens) (BodyPiece.prepend token.value pieces) := by
  have hrun : ∀ other ∈ [token], other.isBodyText = true := List.forall_mem_singleton.2 htoken
  have hvalue : String.join ([token].map Token.value) = token.value := by simp
  cases h with
  | nil =>
    have := BodyPieces.text (List.cons_ne_nil token []) hrun (by simp) .nil
    rwa [hvalue] at this
  | @quoted first tokens pieces hkind later =>
    have hstop : ∀ other ∈ (first :: tokens).head?, other.isBodyText = false := by
      intro other hother
      obtain rfl := Option.some.inj hother
      simp [Token.isBodyText, Token.isBlank, hkind]
    have := BodyPieces.text (List.cons_ne_nil token []) hrun hstop (.quoted hkind later)
    rwa [hvalue] at this
  | @text run tokens pieces hne hall hstop later =>
    have := BodyPieces.text (List.cons_ne_nil token run) (List.forall_mem_cons.2 ⟨htoken, hall⟩)
      hstop later
    rwa [List.map_cons, String.join_cons] at this

theorem BodyPiece.ofTokens_of_isBlank {tokens : List Token}
    (h : ∀ token ∈ tokens, token.isBlank = true) : BodyPiece.ofTokens tokens = [] := by
  induction tokens with
  | nil => rfl
  | cons token tokens ih =>
    obtain ⟨htoken, htokens⟩ := List.forall_mem_cons.1 h
    have hkind : token.kind ≠ .quotedLiteral := by
      intro hkind
      rw [not_isBlank_of_quotedLiteral hkind] at htoken
      cases htoken
    have hall : tokens.all Token.isBlank = true := List.all_eq_true.2 htokens
    rw [BodyPiece.ofTokens, if_neg hkind, htoken, hall, ih htokens]
    rfl

/-- Blanks at the end aside, the tokens of a body are those of its pieces. -/
theorem bodyPieces_ofTokens {tokens final : List Token}
    (hbody : ∀ token ∈ tokens, token.isOfBody = true)
    (hvalue : ∀ token ∈ tokens, token.isBlank = true → token.value ≠ "")
    (hlast : ∀ token ∈ tokens.getLast?, token.isBlank = false)
    (hfinal : ∀ token ∈ final, token.isBlank = true) :
    BodyPieces tokens (BodyPiece.ofTokens (tokens ++ final)) := by
  induction tokens with
  | nil =>
    rw [List.nil_append, BodyPiece.ofTokens_of_isBlank hfinal]
    exact .nil
  | cons token tokens ih =>
    obtain ⟨htoken, htokens⟩ := List.forall_mem_cons.1 hbody
    obtain ⟨hempty, hvalues⟩ := List.forall_mem_cons.1 hvalue
    have hrest : ∀ other ∈ tokens.getLast?, other.isBlank = false := by
      intro other hother
      refine hlast other ?_
      rw [List.getLast?_cons, Option.mem_def.1 hother]
      rfl
    have hpieces := ih htokens hvalues hrest
    by_cases hkind : token.kind = .quotedLiteral
    · rw [List.cons_append, BodyPiece.ofTokens, if_pos hkind]
      exact .quoted hkind hpieces
    · have htext := isBodyText_of_isOfBody htoken hkind
      rw [List.cons_append, BodyPiece.ofTokens, if_neg hkind]
      rw [if_neg]
      · exact bodyPieces_prepend htext hpieces
      · -- a run of blanks is text, since it is not empty and no blanks end the body
        rw [Bool.and_eq_true, Bool.or_eq_true, not_and]
        intro hblank
        rw [String.isEmpty_iff, not_or]
        refine ⟨?_, hempty hblank⟩
        intro hall
        rw [List.all_eq_true] at hall
        cases hend : tokens.getLast? with
        | none =>
          rw [hlast token (by rw [List.getLast?_cons, hend]; rfl)] at hblank
          cases hblank
        | some last =>
          have hmem := List.mem_of_getLast? hend
          have := hall last (List.mem_append_left final hmem)
          rw [hrest last hend] at this
          cases this

theorem not_isBlank_of_head {token : Token} {tokens : List Token}
    (hlexed : Lexed (token :: tokens)) (hblank : token.isBlank = true) :
    ∀ other ∈ tokens.head?, other.isBlank = false := by
  intro other hother
  obtain ⟨rest, rfl⟩ := List.head?_eq_some_iff.1 hother
  have := hlexed.not_blank_blank (beq_iff_eq.1 hblank)
  simpa [Token.isBlank] using this

theorem reservedBody_ofTokens {tokens final : List Token} (hlexed : Lexed tokens)
    (hbody : ∀ token ∈ tokens, token.isOfBody = true)
    (hlast : ∀ token ∈ tokens.getLast?, token.isBlank = false)
    (hfinal : ∀ token ∈ final, token.isBlank = true) :
    ReservedBody tokens (BodyPiece.ofTokens ((tokens ++ final).dropWhile Token.isBlank)) := by
  cases tokens with
  | nil =>
    rw [List.nil_append, ← List.append_nil final, List.dropWhile_append_of_pos hfinal]
    exact .nothing
  | cons token tokens =>
    by_cases hblank : token.isBlank = true
    -- the first run of blanks is the gap, and no other stands behind it
    · have hhead := not_isBlank_of_head hlexed hblank
      rw [List.cons_append, List.dropWhile_cons_of_pos hblank]
      cases tokens with
      | nil =>
        rw [hlast token rfl] at hblank
        cases hblank
      | cons next tokens =>
        have hnext : next.isBlank = false := hhead next rfl
        have hlast : ∀ other ∈ (next :: tokens).getLast?, other.isBlank = false := by
          intro other hother
          refine hlast other ?_
          rwa [List.getLast?_cons_cons]
        rw [List.cons_append, List.dropWhile_cons_of_neg (by simp [hnext])]
        have hpieces := bodyPieces_ofTokens (List.forall_mem_cons.1 hbody).2
          (fun other hother => hlexed.tail.value_ne_empty hother) hlast hfinal
        exact .pieces (.blank hblank) (List.cons_ne_nil next tokens) hhead hlast hpieces
    · rw [List.cons_append, List.dropWhile_cons_of_neg hblank]
      have hpieces := bodyPieces_ofTokens hbody (fun other hother => hlexed.value_ne_empty hother)
        hlast hfinal
      refine .pieces .nothing (List.cons_ne_nil token tokens) ?_ hlast hpieces
      intro other hother
      obtain rfl := Option.some.inj hother
      simpa using hblank

theorem reservedBody_of_readBody {tokens : List Token} (hlexed : Lexed tokens) :
    Derived ReservedBody tokens (readBody tokens).1 (readBody tokens).2 := by
  have hsplit : tokens.takeWhile Token.isOfBody ++ tokens.dropWhile Token.isOfBody = tokens :=
    List.takeWhile_append_dropWhile
  have hall : ∀ token ∈ tokens.takeWhile Token.isOfBody, token.isOfBody = true :=
    List.all_eq_true.1 List.all_takeWhile
  -- all that can belong to the body is taken, and a run of blanks at its end is left again
  rw [← hsplit] at hlexed
  simp only [readBody]
  generalize tokens.dropWhile Token.isOfBody = rest at hsplit hlexed ⊢
  cases hlast : (tokens.takeWhile Token.isOfBody).getLast? with
  | none =>
    rw [List.getLast?_eq_none_iff] at hlast
    rw [hlast] at hsplit ⊢
    exact ⟨[], hsplit.symm, .nothing⟩
  | some last =>
    obtain ⟨init, hinit⟩ := List.getLast?_eq_some_iff.1 hlast
    rw [hinit] at hall hlexed hsplit ⊢
    dsimp only
    by_cases hblank : last.isBlank = true
    · rw [if_pos hblank]
      refine ⟨init, by rw [← hsplit, List.append_assoc]; rfl, ?_⟩
      rw [List.append_assoc] at hlexed
      refine reservedBody_ofTokens hlexed.left (fun token h => hall token (by simp [h])) ?_
        (by simpa using hblank)
      -- the run of blanks that is left is not behind another
      intro token htoken
      obtain ⟨before, rfl⟩ := List.getLast?_eq_some_iff.1 htoken
      rw [List.append_assoc] at hlexed
      cases htoken : token.isBlank with
      | false => rfl
      | true => exact absurd hblank (by simp [not_isBlank_of_head hlexed.right htoken last rfl])
    · rw [if_neg hblank]
      refine ⟨init ++ [last], hsplit.symm, ?_⟩
      have hnone : ∀ token ∈ ([] : List Token), token.isBlank = true := nofun
      have hbody := reservedBody_ofTokens hlexed.left hall (by simpa using hblank) hnone
      rwa [List.append_nil] at hbody

/-! ### Directives and content -/

theorem Directive.derives_of_readBehind {token : Token} {tokens rest : List Token}
    {directive : Directive} (hlexed : Lexed (token :: tokens))
    (hkind : token.kind.beginsDirective = true)
    (h : Directive.readBehind token tokens = .ok (directive, rest)) :
    Derived Directive.Derives (token :: tokens) directive rest := by
  unfold Directive.readBehind at h
  split at h
  · rename_i hfunction
    obtain ⟨⟨options, last⟩, hmany, h⟩ := bind_eq_ok_iff.1 h
    simp only [pure, Except.pure, Except.ok.injEq, Prod.mk.injEq] at h
    obtain ⟨rfl, rfl⟩ := h
    obtain ⟨front, rfl, hoptions⟩ := namedOptions_of_many hlexed.tail hmany
    exact ⟨token :: front, rfl, .function hfunction hoptions⟩
  · rename_i hfunction
    simp only [Except.ok.injEq, Prod.mk.injEq] at h
    obtain ⟨front, hfront, hbody⟩ := reservedBody_of_readBody hlexed.tail
    have hsigil : token.kind = .reservedSigil ∨ token.kind = .privateSigil := by
      revert hkind hfunction
      cases token.kind <;> simp [TokenKind.beginsDirective]
    obtain ⟨sigil, hvalue⟩ := hlexed.exists_sigil List.mem_cons_self hsigil
    have hhead : token.value.toList.head?.getD '!' = sigil := by simp [hvalue]
    rw [hhead] at h
    obtain ⟨hdirective, rfl⟩ := h
    refine ⟨token :: front, by rw [List.cons_append, ← hfront], ?_⟩
    rcases hsigil with hsigil | hsigil
    · rw [hsigil, if_neg (by decide)] at hdirective
      rw [← hdirective]
      exact .reserved hsigil hvalue hbody
    · rw [hsigil, if_pos rfl] at hdirective
      rw [← hdirective]
      exact .privateUse hsigil hvalue hbody

theorem content_of_readContent {tokens rest : List Token} {operand : Option Operand}
    {directive : Option Directive} (hlexed : Lexed tokens)
    (h : readContent tokens = .ok ((operand, directive), rest)) :
    ∃ front, tokens = front ++ rest ∧ Content front operand directive := by
  unfold readContent at h
  split at h
  · cases h
  · rename_i token behind
    split at h
    · rename_i value hvalue
      have hoperand := Operand.ofToken?_eq_some_iff.1 hvalue
      split at h
      · simp only [Except.ok.injEq, Prod.mk.injEq] at h
        obtain ⟨⟨rfl, rfl⟩, rfl⟩ := h
        exact ⟨[token], rfl, .operand hoperand⟩
      · rename_i next later hskip
        split at h
        · rename_i hbegins
          obtain ⟨_, hrequire, h⟩ := bind_eq_ok_iff.1 h
          obtain ⟨⟨d, last⟩, hdirective, h⟩ := bind_eq_ok_iff.1 h
          simp only [pure, Except.pure, Except.ok.injEq, Prod.mk.injEq] at h
          obtain ⟨⟨rfl, rfl⟩, rfl⟩ := h
          obtain ⟨separator, hseparator, hbehind⟩ := exists_separator hrequire
          rw [hskip] at hbehind
          rw [hbehind] at hlexed
          obtain ⟨front, hfront, hd⟩ :=
            Directive.derives_of_readBehind hlexed.tail.right hbegins hdirective
          refine ⟨token :: (separator ++ front), ?_, .both hoperand (.intro hseparator hd)⟩
          rw [hbehind, hfront]
          simp
        · simp only [Except.ok.injEq, Prod.mk.injEq] at h
          obtain ⟨⟨rfl, rfl⟩, rfl⟩ := h
          exact ⟨[token], rfl, .operand hoperand⟩
    · split at h
      · rename_i hbegins
        obtain ⟨⟨d, last⟩, hdirective, h⟩ := bind_eq_ok_iff.1 h
        simp only [pure, Except.pure, Except.ok.injEq, Prod.mk.injEq] at h
        obtain ⟨⟨rfl, rfl⟩, rfl⟩ := h
        obtain ⟨front, hfront, hd⟩ := Directive.derives_of_readBehind hlexed hbegins hdirective
        exact ⟨front, hfront, .directive hd⟩
      · cases h

/-! ### Expressions and markup -/

theorem Expression.derives_of_read {tokens rest : List Token} {e : Expression}
    (hlexed : Lexed tokens) (h : Expression.read tokens = .ok (e, rest)) :
    Derived Expression.Derives tokens e rest := by
  obtain ⟨⟨opening, inside⟩, hexpect, h⟩ := bind_eq_ok_iff.1 h
  obtain ⟨⟨⟨operand, directive⟩, behind⟩, hread, h⟩ := bind_eq_ok_iff.1 h
  obtain ⟨⟨attributes, last⟩, hmany, h⟩ := bind_eq_ok_iff.1 h
  obtain ⟨htokens, hopening⟩ := expect_eq_ok_iff.1 hexpect
  obtain ⟨gap, hgap, hinside⟩ := exists_gap inside
  rw [htokens, hinside] at hlexed
  have hinner := hlexed.tail.right
  obtain ⟨content, hbehind, hcontent⟩ := content_of_readContent hinner hread
  rw [hbehind] at hinner
  obtain ⟨rear, hrear, hattributes⟩ := attributes_of_many hinner.right hmany
  obtain ⟨final, hfinal, hlast⟩ := exists_gap last
  dsimp only at h
  split at h
  · cases h
  · rename_i closing later hskip
    split at h
    · rename_i hclosing
      simp only [pure, Except.pure, Except.ok.injEq, Prod.mk.injEq] at h
      obtain ⟨rfl, rfl⟩ := h
      refine ⟨opening :: (gap ++ (content ++ (rear ++ (final ++ [closing])))), ?_,
        .intro hopening hgap hcontent hattributes hfinal hclosing⟩
      rw [htokens, hinside, hbehind, hrear, hlast, hskip]
      simp
    · cases h

theorem Expression.derives_of_readIfAny {tokens rest : List Token} {e : Expression}
    (hlexed : Lexed tokens) (h : Expression.readIfAny tokens = .ok (some (e, rest))) :
    Derived (Behind Gap Expression.Derives) tokens e rest := by
  unfold Expression.readIfAny at h
  split at h
  · cases hread : Expression.read (skipBlank tokens) with
    | error e => simp [hread, Except.map] at h
    | ok pair =>
      simp only [hread, Except.map, Except.ok.injEq, Option.some.injEq] at h
      subst h
      obtain ⟨gap, hgap, htokens⟩ := exists_gap tokens
      rw [htokens] at hlexed
      obtain ⟨front, hfront, he⟩ := Expression.derives_of_read hlexed.right hread
      refine ⟨gap ++ front, ?_, .intro hgap he⟩
      rw [htokens, hfront, List.append_assoc]
  · cases h

theorem expressions_of_many {tokens rest : List Token} {expressions : List Expression}
    (hlexed : Lexed tokens)
    (h : many Expression.readIfAny Expression.shortens tokens = .ok (expressions, rest)) :
    Derived (Repeated (Behind Gap Expression.Derives)) tokens expressions rest :=
  repeated_of_many Expression.derives_of_readIfAny hlexed h

/-- How markup is read to stand, by whether it opens and whether it stands alone. -/
def MarkupKind.ofReading (opens standsAlone : Bool) : MarkupKind :=
  if standsAlone then .standalone else if opens then .opening else .closing

theorem markupEnd_of_read {name : Token} {tokens rest : List Token} {standsAlone : Bool}
    (hname : name.kind.beginsMarkup = true)
    (h : readMarkupEnd (name.kind == .markupOpen) tokens = .ok (standsAlone, rest)) :
    Derived (MarkupEnd name.kind) tokens
      (MarkupKind.ofReading (name.kind == .markupOpen) standsAlone) rest := by
  have hkind : name.kind = .markupOpen ∨ name.kind = .markupClose := by
    simpa [TokenKind.beginsMarkup] using hname
  unfold readMarkupEnd at h
  dsimp only at h
  split at h
  · cases h
  · rename_i token behind
    split at h
    · rename_i hslash
      rw [Bool.and_eq_true, beq_iff_eq, beq_iff_eq] at hslash
      split at h
      · cases h
      · rename_i closing later
        split at h
        · rename_i hclosing
          simp only [Except.ok.injEq, Prod.mk.injEq] at h
          obtain ⟨rfl, rfl⟩ := h
          rw [hslash.1]
          exact ⟨[token, closing], rfl, .standalone hslash.2 hclosing⟩
        · cases h
    · split at h
      · rename_i hclosing
        simp only [Except.ok.injEq, Prod.mk.injEq] at h
        obtain ⟨rfl, rfl⟩ := h
        refine ⟨[token], rfl, ?_⟩
        rcases hkind with hkind | hkind
        · rw [hkind]
          exact .opening hclosing
        · rw [hkind]
          exact .closing hclosing
      · cases h

theorem Markup.derives_of_read {tokens rest : List Token} {m : Markup} (hlexed : Lexed tokens)
    (h : Markup.read tokens = .ok (m, rest)) : Derived Markup.Derives tokens m rest := by
  obtain ⟨⟨opening, inside⟩, hexpect, h⟩ := bind_eq_ok_iff.1 h
  obtain ⟨htokens, hopening⟩ := expect_eq_ok_iff.1 hexpect
  obtain ⟨gap, hgap, hinside⟩ := exists_gap inside
  dsimp only at h
  split at h
  · cases h
  · rename_i name behind hskip
    rw [hskip] at hinside
    rw [htokens, hinside] at hlexed
    have hinner := hlexed.tail.right.tail
    split at h
    · rename_i hname
      obtain ⟨⟨options, later⟩, hoptions, h⟩ := bind_eq_ok_iff.1 h
      obtain ⟨⟨attributes, last⟩, hattributes, h⟩ := bind_eq_ok_iff.1 h
      obtain ⟨⟨standsAlone, close⟩, hend, h⟩ := bind_eq_ok_iff.1 h
      simp only [pure, Except.pure, Except.ok.injEq, Prod.mk.injEq] at h
      obtain ⟨rfl, rfl⟩ := h
      obtain ⟨front, rfl, hfront⟩ := namedOptions_of_many hinner hoptions
      obtain ⟨rear, rfl, hrear⟩ := attributes_of_many hinner.right hattributes
      obtain ⟨final, hfinal, hlast⟩ := exists_gap last
      obtain ⟨ending, hclose, hending⟩ := markupEnd_of_read hname hend
      refine ⟨opening :: (gap ++ name :: (front ++ (rear ++ (final ++ ending)))), ?_,
        .intro hopening hgap hfront hrear hfinal hending⟩
      rw [htokens, hinside, hlast, hclose]
      simp
    · cases h

/-! ### Patterns -/

theorem PatternPart.derives_of_readIfAny {closing : TokenKind} {tokens rest : List Token}
    {part : PatternPart} (hlexed : Lexed tokens)
    (h : PatternPart.readIfAny closing tokens = .ok (some (part, rest))) :
    Derived PatternPart.Derives tokens part rest := by
  unfold PatternPart.readIfAny at h
  split at h
  · split at h <;> cases h
  · rename_i token behind
    split at h
    · rename_i hkind
      simp only [Except.ok.injEq, Option.some.injEq, Prod.mk.injEq] at h
      obtain ⟨rfl, rfl⟩ := h
      exact ⟨[token], rfl, .text hkind⟩
    · split at h
      · cases hread : PatternPart.readPlaceholder (token :: behind) with
        | error e => simp [hread, Except.map] at h
        | ok pair =>
          simp only [hread, Except.map, Except.ok.injEq, Option.some.injEq] at h
          subst h
          unfold PatternPart.readPlaceholder at hread
          split at hread
          · obtain ⟨⟨m, last⟩, hm, hread⟩ := bind_eq_ok_iff.1 hread
            simp only [pure, Except.pure, Except.ok.injEq, Prod.mk.injEq] at hread
            obtain ⟨rfl, rfl⟩ := hread
            obtain ⟨front, hfront, hderives⟩ := Markup.derives_of_read hlexed hm
            exact ⟨front, hfront, .markup hderives⟩
          · obtain ⟨⟨e, last⟩, he, hread⟩ := bind_eq_ok_iff.1 hread
            simp only [pure, Except.pure, Except.ok.injEq, Prod.mk.injEq] at hread
            obtain ⟨rfl, rfl⟩ := hread
            obtain ⟨front, hfront, hderives⟩ := Expression.derives_of_read hlexed he
            exact ⟨front, hfront, .expression hderives⟩
      · split at h <;> cases h

theorem Pattern.derives_of_read {closing : TokenKind} {tokens rest : List Token}
    {pattern : Pattern} (hlexed : Lexed tokens)
    (h : Pattern.read closing tokens = .ok (pattern, rest)) :
    Derived Pattern.Derives tokens pattern rest :=
  repeated_of_many PatternPart.derives_of_readIfAny hlexed h

theorem Pattern.derivesQuoted_of_read {tokens rest : List Token} {pattern : Pattern}
    (hlexed : Lexed tokens) (h : Pattern.readQuoted tokens = .ok (pattern, rest)) :
    Derived Pattern.DerivesQuoted tokens pattern rest := by
  obtain ⟨⟨opening, inside⟩, hexpect, h⟩ := bind_eq_ok_iff.1 h
  obtain ⟨⟨parts, behind⟩, hread, h⟩ := bind_eq_ok_iff.1 h
  obtain ⟨⟨closing, last⟩, hclose, h⟩ := bind_eq_ok_iff.1 h
  simp only [pure, Except.pure, Except.ok.injEq, Prod.mk.injEq] at h
  obtain ⟨rfl, rfl⟩ := h
  obtain ⟨rfl, hopening⟩ := expect_eq_ok_iff.1 hexpect
  obtain ⟨front, rfl, hfront⟩ := Pattern.derives_of_read hlexed.tail hread
  obtain ⟨rfl, hclosing⟩ := expect_eq_ok_iff.1 hclose
  refine ⟨opening :: (front ++ [closing]), ?_, .intro hopening hfront hclosing⟩
  simp

/-! ### Matchers -/

theorem VariantKey.derives_of_read {tokens rest : List Token} {key : VariantKey}
    (h : VariantKey.read tokens = .ok (key, rest)) :
    Derived VariantKey.Derives tokens key rest := by
  unfold VariantKey.read at h
  split at h
  · cases h
  · rename_i token behind
    split at h
    · rename_i hkey
      simp only [Except.ok.injEq, Prod.mk.injEq] at h
      obtain ⟨rfl, rfl⟩ := h
      exact ⟨[token], rfl, VariantKey.ofToken?_eq_some_iff.1 hkey⟩
    · cases h

theorem VariantKey.derives_of_readIfAny {tokens rest : List Token} {key : VariantKey}
    (h : VariantKey.readIfAny tokens = .ok (some (key, rest))) :
    Derived (Behind Separator VariantKey.Derives) tokens key rest := by
  unfold VariantKey.readIfAny at h
  split at h
  · cases h
  · rename_i token behind hskip
    split at h
    · rename_i hkey
      obtain ⟨_, hrequire, h⟩ := bind_eq_ok_iff.1 h
      simp only [pure, Except.pure, Except.ok.injEq, Option.some.injEq, Prod.mk.injEq] at h
      obtain ⟨rfl, rfl⟩ := h
      obtain ⟨separator, hseparator, htokens⟩ := exists_separator hrequire
      refine ⟨separator ++ [token], ?_,
        .intro hseparator (VariantKey.ofToken?_eq_some_iff.1 hkey)⟩
      rw [htokens, hskip, List.append_assoc]
      rfl
    · split at h <;> cases h

theorem Variant.derives_of_read {tokens rest : List Token} {v : Variant} (hlexed : Lexed tokens)
    (h : Variant.read tokens = .ok (v, rest)) : Derived Variant.Derives tokens v rest := by
  obtain ⟨⟨key, behind⟩, hkey, h⟩ := bind_eq_ok_iff.1 h
  obtain ⟨⟨keys, later⟩, hkeys, h⟩ := bind_eq_ok_iff.1 h
  obtain ⟨⟨pattern, last⟩, hpattern, h⟩ := bind_eq_ok_iff.1 h
  simp only [pure, Except.pure, Except.ok.injEq, Prod.mk.injEq] at h
  obtain ⟨rfl, rfl⟩ := h
  obtain ⟨front, rfl, hfront⟩ := VariantKey.derives_of_read hkey
  obtain ⟨further, rfl, hfurther⟩ :=
    repeated_of_many (fun _ => VariantKey.derives_of_readIfAny) hlexed.right hkeys
  obtain ⟨gap, hgap, hlater⟩ := exists_gap later
  rw [hlater] at hlexed
  obtain ⟨quoted, hquoted, hderives⟩ :=
    Pattern.derivesQuoted_of_read hlexed.right.right.right hpattern
  refine ⟨front ++ (further ++ (gap ++ quoted)), ?_, .intro hfront hfurther hgap hderives⟩
  rw [hlater, hquoted]
  simp

theorem Variant.derives_of_readIfAny {tokens rest : List Token} {v : Variant}
    (hlexed : Lexed tokens) (h : Variant.readIfAny tokens = .ok (some (v, rest))) :
    Derived (Behind Gap Variant.Derives) tokens v rest := by
  unfold Variant.readIfAny at h
  split at h
  · cases h
  · cases hread : Variant.read (skipBlank tokens) with
    | error e => simp [hread, Except.map] at h
    | ok pair =>
      simp only [hread, Except.map, Except.ok.injEq, Option.some.injEq] at h
      subst h
      obtain ⟨gap, hgap, htokens⟩ := exists_gap tokens
      rw [htokens] at hlexed
      obtain ⟨front, hfront, hv⟩ := Variant.derives_of_read hlexed.right hread
      refine ⟨gap ++ front, ?_, .intro hgap hv⟩
      rw [htokens, hfront, List.append_assoc]

theorem Matcher.derives_of_readBehind {keyword : Token} {tokens rest : List Token} {m : Matcher}
    (hkeyword : keyword.kind = .matchKeyword) (hlexed : Lexed tokens)
    (h : Matcher.readBehind tokens = .ok (m, rest)) :
    Derived Matcher.Derives (keyword :: tokens) m rest := by
  obtain ⟨⟨selectors, behind⟩, hselectors, h⟩ := bind_eq_ok_iff.1 h
  obtain ⟨front, htokens, hfront⟩ := expressions_of_many hlexed hselectors
  rw [htokens] at hlexed
  dsimp only at h
  split at h
  · cases h
  · rename_i hselected
    obtain ⟨⟨variants, last⟩, hvariants, h⟩ := bind_eq_ok_iff.1 h
    obtain ⟨rear, hbehind, hrear⟩ :=
      repeated_of_many Variant.derives_of_readIfAny hlexed.right hvariants
    dsimp only at h
    split at h
    · cases h
    · rename_i hvaried
      simp only [pure, Except.pure, Except.ok.injEq, Prod.mk.injEq] at h
      obtain ⟨rfl, rfl⟩ := h
      rw [List.isEmpty_iff] at hselected hvaried
      refine ⟨keyword :: (front ++ rear), ?_, .intro hkeyword hfront hselected hrear hvaried⟩
      rw [htokens, hbehind]
      simp

/-! ### Declarations -/

theorem dropWhile_gap {gap rest : List Token} {token : Token} (hgap : Gap gap)
    (htoken : token.isBlank = false) :
    (gap ++ token :: rest).dropWhile Token.isBlank = token :: rest := by
  have hdrop : (token :: rest).dropWhile Token.isBlank = token :: rest :=
    List.dropWhile_cons_of_neg (by simp [htoken])
  cases hgap with
  | nothing => exact hdrop
  | blank hblank => rw [List.singleton_append, List.dropWhile_cons_of_pos hblank, hdrop]

theorem Literal.Derives.exists_token {tokens : List Token} {l : Literal}
    (h : Literal.Derives tokens l) : ∃ token, tokens = [token] ∧ token.kind.isLiteral = true := by
  cases h with
  | @quoted token hkind | @name token hkind | @number token hkind =>
    exact ⟨token, rfl, by rw [hkind]; rfl⟩

theorem Operand.Derives.exists_token {tokens : List Token} {operand : Operand}
    (h : Operand.Derives tokens operand) : ∃ token, tokens = [token] ∧
      token.kind ∈ operandKinds ∧
        (token.kind = .variableName → operand = .variableName token.value) := by
  cases h with
  | literal h =>
    obtain ⟨token, rfl, hkind⟩ := h.exists_token
    refine ⟨token, rfl, ?_⟩
    revert hkind
    cases token.kind <;> simp [operandKinds, TokenKind.isLiteral]
  | @variableName token hkind => exact ⟨token, rfl, by simp [operandKinds, hkind], fun _ => rfl⟩

theorem Directive.Derives.exists_token {tokens : List Token} {directive : Directive}
    (h : Directive.Derives tokens directive) : ∃ token rest, tokens = token :: rest ∧
      token.kind.beginsDirective = true := by
  cases h with
  | @function token rest _ hkind => exact ⟨token, rest, rfl, by rw [hkind]; rfl⟩
  | @reserved token rest _ _ hkind => exact ⟨token, rest, rfl, by rw [hkind]; rfl⟩
  | @privateUse token rest _ _ hkind => exact ⟨token, rest, rfl, by rw [hkind]; rfl⟩

/-- An expression begins with its operand, so that the first token tells whether that is a
variable. -/
theorem Content.exists_token {tokens : List Token} {operand : Option Operand}
    {directive : Option Directive} (h : Content tokens operand directive) :
    ∃ token rest, tokens = token :: rest ∧ token.isBlank = false ∧
      token.kind.beginsMarkup = false ∧
        (token.kind = .variableName → operand = some (.variableName token.value)) := by
  have hoperands {kind : TokenKind} (h : kind ∈ operandKinds) :
      kind ≠ .blank ∧ kind.beginsMarkup = false := by
    revert h
    cases kind <;> decide
  have hdirectives {kind : TokenKind} (h : kind.beginsDirective = true) :
      kind ≠ .blank ∧ kind.beginsMarkup = false ∧ kind ≠ .variableName := by
    revert h
    cases kind <;> decide
  cases h with
  | operand h =>
    obtain ⟨token, rfl, hkind, hvariable⟩ := h.exists_token
    exact ⟨token, [], rfl, beq_eq_false_iff_ne.2 (hoperands hkind).1, (hoperands hkind).2,
      fun h => congrArg some (hvariable h)⟩
  | directive h =>
    obtain ⟨token, rest, rfl, hkind⟩ := h.exists_token
    exact ⟨token, rest, rfl, beq_eq_false_iff_ne.2 (hdirectives hkind).1, (hdirectives hkind).2.1,
      fun h => absurd h (hdirectives hkind).2.2⟩
  | both h _ =>
    obtain ⟨token, rfl, hkind, hvariable⟩ := h.exists_token
    exact ⟨token, _, rfl, beq_eq_false_iff_ne.2 (hoperands hkind).1, (hoperands hkind).2,
      fun h => congrArg some (hvariable h)⟩

theorem Expression.operand_of_derives {tokens inside behind rest : List Token} {e : Expression}
    {opening name : Token} (h : Expression.Derives tokens e)
    (htokens : tokens ++ rest = opening :: inside)
    (hinside : inside.dropWhile Token.isBlank = name :: behind)
    (hkind : name.kind = .variableName) : e.operand = some (.variableName name.value) := by
  cases h with
  | intro _ hgap hcontent _ _ _ =>
    obtain ⟨token, later, rfl, hblank, -, hvariable⟩ := hcontent.exists_token
    rw [List.cons_append, List.cons.injEq] at htokens
    rw [← htokens.2, List.append_assoc, List.cons_append, List.cons_append,
      dropWhile_gap hgap hblank] at hinside
    obtain ⟨rfl, -⟩ := List.cons.inj hinside
    exact hvariable hkind

theorem Declaration.derives_of_readInput {keyword : Token} {tokens rest : List Token}
    {d : Declaration} (hkeyword : keyword.kind = .inputKeyword) (hlexed : Lexed tokens)
    (h : Declaration.readInput tokens = .ok (d, rest)) :
    Derived Declaration.Derives (keyword :: tokens) d rest := by
  obtain ⟨⟨opening, inside⟩, hopening, h⟩ := bind_eq_ok_iff.1 h
  obtain ⟨⟨name, behind⟩, hname, h⟩ := bind_eq_ok_iff.1 h
  obtain ⟨⟨e, last⟩, hread, h⟩ := bind_eq_ok_iff.1 h
  simp only [pure, Except.pure, Except.ok.injEq, Prod.mk.injEq] at h
  obtain ⟨rfl, rfl⟩ := h
  obtain ⟨hskip, -⟩ := expect_eq_ok_iff.1 hopening
  obtain ⟨hinside, hkind⟩ := expect_eq_ok_iff.1 hname
  obtain ⟨gap, hgap, htokens⟩ := exists_gap tokens
  rw [htokens] at hlexed
  obtain ⟨front, hfront, he⟩ := Expression.derives_of_read hlexed.right hread
  refine ⟨keyword :: (gap ++ front), ?_, .input hkeyword hgap he
    (Expression.operand_of_derives he (hfront.symm.trans hskip) hinside hkind)⟩
  rw [htokens, hfront]
  simp

theorem Declaration.derives_of_readAssign {keyword : Token} {tokens rest : List Token}
    {d : Declaration} (hkeyword : keyword.kind = .localKeyword) (hlexed : Lexed tokens)
    (h : Declaration.readAssign tokens = .ok (d, rest)) :
    Derived Declaration.Derives (keyword :: tokens) d rest := by
  obtain ⟨_, hrequire, h⟩ := bind_eq_ok_iff.1 h
  obtain ⟨⟨name, behind⟩, hname, h⟩ := bind_eq_ok_iff.1 h
  obtain ⟨⟨equals, later⟩, hequals, h⟩ := bind_eq_ok_iff.1 h
  obtain ⟨⟨e, last⟩, hread, h⟩ := bind_eq_ok_iff.1 h
  simp only [pure, Except.pure, Except.ok.injEq, Prod.mk.injEq] at h
  obtain ⟨rfl, rfl⟩ := h
  obtain ⟨separator, hseparator, htokens⟩ := exists_separator hrequire
  obtain ⟨hskip, hkind⟩ := expect_eq_ok_iff.1 hname
  obtain ⟨before, hbefore, hbehind⟩ := exists_gap behind
  obtain ⟨hskip', hkind'⟩ := expect_eq_ok_iff.1 hequals
  obtain ⟨gap, hgap, hlater⟩ := exists_gap later
  rw [hskip', hlater] at hbehind
  rw [hskip, hbehind] at htokens
  rw [htokens] at hlexed
  obtain ⟨front, hfront, he⟩ :=
    Expression.derives_of_read hlexed.right.tail.right.tail.right hread
  refine ⟨keyword :: (separator ++ name :: (before ++ equals :: (gap ++ front))), ?_,
    .assign hkeyword hseparator hkind hbefore hkind' hgap he⟩
  rw [htokens, hfront]
  simp

theorem Declaration.derives_of_readReserved {keyword : Token} {tokens rest : List Token}
    {d : Declaration} (hkeyword : keyword.kind = .reservedKeyword) (hlexed : Lexed tokens)
    (h : Declaration.readReserved keyword.value tokens = .ok (d, rest)) :
    Derived Declaration.Derives (keyword :: tokens) d rest := by
  obtain ⟨⟨expressions, last⟩, hmany, h⟩ := bind_eq_ok_iff.1 h
  obtain ⟨front, hfront, hbody⟩ := reservedBody_of_readBody hlexed
  rw [hfront] at hlexed
  obtain ⟨rear, hrear, hexpressions⟩ := expressions_of_many hlexed.right hmany
  dsimp only at h
  split at h
  · cases h
  · rename_i hne
    simp only [pure, Except.pure, Except.ok.injEq, Prod.mk.injEq] at h
    obtain ⟨rfl, rfl⟩ := h
    rw [List.isEmpty_iff] at hne
    refine ⟨keyword :: (front ++ rear), ?_, .reserved hkeyword hbody hexpressions hne⟩
    rw [List.cons_append, List.append_assoc, ← hrear, ← hfront]

theorem Declaration.derives_of_readIfAny {tokens rest : List Token} {d : Declaration}
    (hlexed : Lexed tokens) (h : Declaration.readIfAny tokens = .ok (some (d, rest))) :
    Derived (Behind Gap Declaration.Derives) tokens d rest := by
  obtain ⟨gap, hgap, htokens⟩ := exists_gap tokens
  have hbehind {keyword : Token} {later : List Token} (hskip : skipBlank tokens = keyword :: later)
      (hd : Derived Declaration.Derives (keyword :: later) d rest) :
      Derived (Behind Gap Declaration.Derives) tokens d rest := by
    obtain ⟨front, hfront, hd⟩ := hd
    refine ⟨gap ++ front, ?_, .intro hgap hd⟩
    rw [htokens, hskip, hfront, List.append_assoc]
  rw [htokens] at hlexed
  have hmap {x : Except Mismatch (Declaration × List Token)}
      (hx : x.map some = .ok (some (d, rest))) : x = .ok (d, rest) := by
    cases x with
    | error e => cases hx
    | ok pair => exact congrArg Except.ok (Option.some.inj (Except.ok.inj hx))
  unfold Declaration.readIfAny at h
  split at h
  · cases h
  · rename_i keyword later hskip
    rw [hskip] at hlexed
    have hlater := hlexed.right.tail
    split at h
    · rename_i hkind
      exact hbehind hskip (Declaration.derives_of_readInput hkind hlater (hmap h))
    · rename_i hkind
      exact hbehind hskip (Declaration.derives_of_readAssign hkind hlater (hmap h))
    · rename_i hkind
      exact hbehind hskip (Declaration.derives_of_readReserved hkind hlater (hmap h))
    · cases h

/-! ### Messages -/

/-- Gaps before items and one behind them are a gap before them and gaps behind items. -/
theorem repeated_before_of_behind {item : List Token → α → Prop} {front final : List Token}
    {as : List α} (h : Repeated (Behind Gap item) front as) (hfinal : Gap final) :
    ∃ gap later, Gap gap ∧ Repeated (Before item Gap) later as ∧ front ++ final = gap ++ later := by
  induction h with
  | nil => exact ⟨final, [], hfinal, .nil, by simp⟩
  | cons h _ ih =>
    obtain ⟨gap, later, hgap, hlater, heq⟩ := ih
    cases h with
    | @intro first tokens _ hfirst hitem =>
      refine ⟨first, tokens ++ gap ++ later, hfirst, .cons (.intro hitem hgap) hlater, ?_⟩
      rw [List.append_assoc, heq]
      simp

theorem MessageBody.derives_of_read {tokens rest : List Token} {body : MessageBody}
    (hlexed : Lexed tokens) (h : MessageBody.read tokens = .ok (body, rest)) :
    Derived MessageBody.Derives tokens body rest := by
  unfold MessageBody.read at h
  split at h
  · cases h
  · rename_i token behind
    split at h
    · rename_i hkind
      obtain ⟨⟨m, last⟩, hread, h⟩ := bind_eq_ok_iff.1 h
      simp only [pure, Except.pure, Except.ok.injEq, Prod.mk.injEq] at h
      obtain ⟨rfl, rfl⟩ := h
      obtain ⟨front, hfront, hm⟩ := Matcher.derives_of_readBehind hkind hlexed.tail hread
      exact ⟨front, hfront, .matcher hm⟩
    · obtain ⟨⟨p, last⟩, hread, h⟩ := bind_eq_ok_iff.1 h
      simp only [pure, Except.pure, Except.ok.injEq, Prod.mk.injEq] at h
      obtain ⟨rfl, rfl⟩ := h
      obtain ⟨front, hfront, hp⟩ := Pattern.derivesQuoted_of_read hlexed hread
      exact ⟨front, hfront, .pattern hp⟩
    · cases h

theorem eq_nil_of_expectEnd {tokens : List Token} (h : expectEnd tokens = .ok ()) :
    tokens = [] := by
  unfold expectEnd at h
  split at h
  · rename_i hempty
    exact List.isEmpty_iff.1 hempty
  · cases h

/-- **Soundness**: lexed tokens that are read as a message derive it. -/
theorem Message.derivesInner_of_read {tokens : List Token} {m : Message} (hlexed : Lexed tokens)
    (h : Message.read tokens = .ok m) : Message.DerivesInner tokens m := by
  unfold Message.read at h
  split at h
  · obtain ⟨⟨declarations, behind⟩, hmany, h⟩ := bind_eq_ok_iff.1 h
    obtain ⟨⟨body, last⟩, hread, h⟩ := bind_eq_ok_iff.1 h
    obtain ⟨_, hend, h⟩ := bind_eq_ok_iff.1 h
    simp only [pure, Except.pure, Except.ok.injEq] at h
    subst h
    obtain ⟨front, rfl, hfront⟩ := repeated_of_many Declaration.derives_of_readIfAny hlexed hmany
    obtain ⟨gap, hgap, hbehind⟩ := exists_gap behind
    rw [hbehind] at hlexed
    obtain ⟨inner, hinner, hbody⟩ := MessageBody.derives_of_read hlexed.right.right hread
    obtain ⟨final, hfinal, hlast⟩ := exists_gap last
    rw [eq_nil_of_expectEnd hend, List.append_nil] at hlast
    obtain ⟨first, later, hfirst, hlater, heq⟩ := repeated_before_of_behind hfront hgap
    rw [hbehind, hinner, hlast, ← List.append_assoc, heq, List.append_assoc]
    exact .complex hfirst hlater hbody hfinal
  · obtain ⟨⟨pattern, rest⟩, hread, h⟩ := bind_eq_ok_iff.1 h
    obtain ⟨_, hend, h⟩ := bind_eq_ok_iff.1 h
    simp only [pure, Except.pure, Except.ok.injEq] at h
    subst h
    obtain ⟨front, rfl, hfront⟩ := Pattern.derives_of_read hlexed hread
    rw [eq_nil_of_expectEnd hend, List.append_nil]
    exact .simple hfront

end MessageFormat
