import Mathlib.Data.List.Forall2
import Mathlib.Data.Option.Basic
import MessageFormat.Message.Parsing

/-!
# Layout

Where nothing is reserved, reading looks at the kinds of tokens, at the values of those that are no
blanks, and at which blanks separate.  So two lists of tokens that agree in this are read alike, be
they spread over their sources as they may: as the same message, or with errors that expect the
same.

* `Token.Alike` : two tokens differ in layout only;
* `EndAlike.bind`, `EndAlike.many` : readings one behind the other, and repeated readings;
* `Message.endAlike_read` : a message is read alike from tokens that are alike;
* `layout_irrelevant` : so it is parsed alike, from any sources.
-/

namespace MessageFormat

variable {α β : Type}

/-! ### Tokens that are alike -/

/-- The kinds of tokens that a reserved body stands behind, which keeps its blanks. -/
def reservingKinds : List TokenKind := [.reservedKeyword, .reservedSigil, .privateSigil]

/-- Two tokens differ in layout only: in where they stand, and in what blanks consist of as long as
both separate or neither does. -/
structure Token.Alike (a b : Token) : Prop where
  /-- They are of the same kind. -/
  kind_eq : a.kind = b.kind
  /-- They say the same, unless they are blanks. -/
  value_eq : a.kind ≠ .blank → a.value = b.value
  /-- As blanks, both of them separate or neither does. -/
  isSeparator_eq : a.kind = .blank → a.isSeparator = b.isSeparator

/-- They differ in layout only, and no reserved body stands behind them. -/
structure Token.Matches (a b : Token) : Prop extends a.Alike b where
  /-- There is no reserved body. -/
  notMem : a.kind ∉ reservingKinds

namespace Token.Matches

variable {a b : Token} (h : a.Matches b)
include h

theorem isBlank_eq : a.isBlank = b.isBlank := by
  rw [isBlank, isBlank, h.kind_eq]

theorem value_eq_of_kind {kind : TokenKind} (hkind : b.kind = kind) (hne : kind ≠ .blank) :
    a.value = b.value :=
  h.value_eq (by rwa [h.kind_eq, hkind])

theorem separates_eq : a.isSeparator = b.isSeparator := by
  by_cases hblank : a.kind = .blank
  · exact h.isSeparator_eq hblank
  · have hblank' : b.kind ≠ .blank := h.kind_eq ▸ hblank
    rw [isSeparator, isSeparator, isBlank, isBlank, beq_false_of_ne hblank,
      beq_false_of_ne hblank']
    rfl

theorem literal_eq : Literal.ofToken? a = Literal.ofToken? b := by
  by_cases hblank : a.kind = .blank
  · rw [Literal.ofToken?, Literal.ofToken?, ← h.kind_eq, hblank]
  · rw [Literal.ofToken?, Literal.ofToken?, h.kind_eq, h.value_eq hblank]

theorem operand_eq : Operand.ofToken? a = Operand.ofToken? b := by
  rw [Operand.ofToken?, Operand.ofToken?, h.literal_eq, h.kind_eq]
  by_cases hkind : b.kind = .variableName
  · rw [h.value_eq_of_kind hkind nofun]
  · rw [if_neg hkind, if_neg hkind]

theorem key_eq : VariantKey.ofToken? a = VariantKey.ofToken? b := by
  rw [VariantKey.ofToken?, VariantKey.ofToken?, h.literal_eq, h.kind_eq]

/-- Where nothing is reserved, a directive is the call of a function. -/
theorem kind_eq_functionName (hdirective : b.kind.beginsDirective = true) :
    b.kind = .functionName := by
  have hnotMem := h.notMem
  rw [h.kind_eq] at hnotMem
  cases hkind : b.kind <;> simp_all [TokenKind.beginsDirective, reservingKinds]

end Token.Matches

/-- Lists of tokens that match one by one. -/
abbrev MatchAll (ts us : List Token) : Prop := List.Forall₂ Token.Matches ts us

namespace MatchAll

variable {ts us : List Token} (h : MatchAll ts us)
include h

theorem head? : Option.Rel Token.Matches ts.head? us.head? := by
  cases h with
  | nil => exact .none
  | cons hab _ => exact .some hab

theorem any_head? (p : TokenKind → Bool) :
    ts.head?.any (p ·.kind) = us.head?.any (p ·.kind) := by
  cases h with
  | nil => rfl
  | cons hab _ => exact congrArg p hab.kind_eq

theorem isEmpty_eq : ts.isEmpty = us.isEmpty := by
  cases h <;> rfl

theorem skipBlank : MatchAll (skipBlank ts) (skipBlank us) := by
  cases h with
  | nil => exact .nil
  | @cons a b ts us hab h =>
    rw [MessageFormat.skipBlank, MessageFormat.skipBlank, hab.isBlank_eq]
    by_cases hblank : b.isBlank = true
    · rwa [if_pos hblank, if_pos hblank]
    · rw [if_neg hblank, if_neg hblank]
      exact .cons hab h

theorem dropBlank : MatchAll (ts.dropWhile Token.isBlank) (us.dropWhile Token.isBlank) := by
  induction h with
  | nil => exact .nil
  | @cons a b ts us hab h ih =>
    rw [List.dropWhile_cons, List.dropWhile_cons, hab.isBlank_eq]
    by_cases hblank : b.isBlank = true
    · rwa [if_pos hblank, if_pos hblank]
    · rw [if_neg hblank, if_neg hblank]
      exact .cons hab h

end MatchAll

/-! ### Readings that end alike -/

/-- Two readings end alike: with results that are related, or with mismatches that expect the same
and found tokens that match. -/
inductive EndAlike (R : α → α → Prop) : Except Mismatch α → Except Mismatch α → Prop where
  /-- Both have results. -/
  | ok {a b : α} (h : R a b) : EndAlike R (.ok a) (.ok b)
  /-- Both have mismatches. -/
  | error {expected : List TokenKind} {found found' : Option Token}
      (h : Option.Rel Token.Matches found found') :
      EndAlike R (.error ⟨expected, found⟩) (.error ⟨expected, found'⟩)

/-- Results that are related, with tokens behind them that match. -/
def ReadAlike (R : α → α → Prop) (a b : α × List Token) : Prop := R a.1 b.1 ∧ MatchAll a.2 b.2

namespace EndAlike

variable {R : α → α → Prop} {S : β → β → Prop}

theorem mismatch {expected : List TokenKind} {ts us : List Token} (h : MatchAll ts us) :
    EndAlike R (mismatch expected ts) (mismatch expected us) :=
  .error h.head?

theorem bind {x y : Except Mismatch α} {f g : α → Except Mismatch β} (hxy : EndAlike R x y)
    (hfg : ∀ a b, R a b → EndAlike S (f a) (g b)) : EndAlike S (x >>= f) (y >>= g) := by
  cases hxy with
  | ok h => exact hfg _ _ h
  | error h => exact .error h

/-- A reading behind another one starts from tokens that match. -/
theorem thenRead {x y : Except Mismatch (α × List Token)}
    {f g : α × List Token → Except Mismatch β} (hxy : EndAlike (ReadAlike Eq) x y)
    (hfg : ∀ a ts us, MatchAll ts us → EndAlike S (f (a, ts)) (g (a, us))) :
    EndAlike S (x >>= f) (y >>= g) := by
  refine hxy.bind ?_
  rintro ⟨a, ts⟩ ⟨_, us⟩ ⟨rfl, h⟩
  exact hfg a ts us h

theorem map {x y : Except Mismatch α} {f g : α → β} (hxy : EndAlike R x y)
    (hfg : ∀ a b, R a b → S (f a) (g b)) : EndAlike S (x.map f) (y.map g) := by
  cases hxy with
  | ok h => exact .ok (hfg _ _ h)
  | error h => exact .error h

/-- Items are read alike many times if they are read alike once. -/
theorem many {item : List Token → Except Mismatch (Option (α × List Token))}
    {shortens : Shortens item}
    (hitem : ∀ ts us, MatchAll ts us → EndAlike (Option.Rel (ReadAlike Eq)) (item ts) (item us))
    {ts us : List Token} (h : MatchAll ts us) :
    EndAlike (ReadAlike Eq) (many item shortens ts) (many item shortens us) := by
  fun_induction MessageFormat.many item shortens ts generalizing us with
  | case1 ts m hm =>
    have halike := hitem ts us h
    rw [hm] at halike
    generalize hother : item us = other at halike
    cases halike with
    | error hfound =>
      rw [many_of_error hother]
      exact .error hfound
  | case2 ts hnone =>
    have halike := hitem ts us h
    rw [hnone] at halike
    generalize hother : item us = other at halike
    cases halike with
    | ok hitems =>
      cases hitems
      rw [many_of_none hother]
      exact .ok ⟨rfl, h⟩
  | case3 ts a middle hsome ih =>
    have halike := hitem ts us h
    rw [hsome] at halike
    generalize hother : item us = other at halike
    cases halike with
    | ok hitems =>
      cases hitems with
      | @some _ b hpair =>
        obtain ⟨b, rest⟩ := b
        obtain ⟨rfl, hrest⟩ := hpair
        rw [many_of_some hother]
        refine (ih hrest).map fun as bs has => ⟨congrArg (_ :: ·) has.1, has.2⟩

end EndAlike

/-! ### Single tokens -/

section Readers

variable {ts us : List Token} (h : MatchAll ts us)
include h

theorem endAlike_requireSeparator :
    EndAlike (fun _ _ => True) (requireSeparator ts) (requireSeparator us) := by
  have hhead : ts.head?.any Token.isSeparator = us.head?.any Token.isSeparator := by
    cases h with
    | nil => rfl
    | cons hab _ => exact hab.separates_eq
  rw [requireSeparator, requireSeparator, hhead]
  split
  · exact .ok trivial
  · exact .mismatch h.skipBlank

theorem endAlike_expect (kind : TokenKind) :
    EndAlike (ReadAlike fun a b => a.Matches b ∧ b.kind = kind)
      (expect kind ts) (expect kind us) := by
  cases h with
  | nil => exact .mismatch .nil
  | cons hab h =>
    rw [expect, expect, hab.kind_eq]
    split
    · rename_i hkind
      exact .ok ⟨⟨hab, hkind⟩, h⟩
    · exact .mismatch (.cons hab h)

theorem endAlike_expectEnd : EndAlike (fun _ _ => True) (expectEnd ts) (expectEnd us) := by
  rw [expectEnd, expectEnd, h.isEmpty_eq]
  split
  · exact .ok trivial
  · exact .mismatch h

/-! ### Operands, options and attributes -/

theorem Operand.endAlike_read : EndAlike (ReadAlike Eq) (Operand.read ts) (Operand.read us) := by
  cases h with
  | nil => exact .mismatch .nil
  | cons hab h =>
    rw [read, read, hab.operand_eq]
    split
    · exact .ok ⟨rfl, h⟩
    · exact .mismatch (.cons hab h)

theorem endAlike_readAssigned : EndAlike (ReadAlike Eq) (readAssigned ts) (readAssigned us) :=
  (endAlike_expect h.skipBlank .equals).bind fun _ _ hequals =>
    Operand.endAlike_read hequals.2.skipBlank

theorem NamedOption.endAlike_readIfAny :
    EndAlike (Option.Rel (ReadAlike Eq)) (readIfAny ts) (readIfAny us) := by
  have hskip := h.skipBlank
  unfold readIfAny
  generalize skipBlank ts = rest at hskip
  generalize skipBlank us = rest' at hskip
  cases hskip with
  | nil => exact .ok .none
  | cons hab hrest =>
    simp only [hab.kind_eq]
    split
    · rename_i hkind
      refine (endAlike_requireSeparator h).bind fun _ _ _ => ?_
      refine (endAlike_readAssigned hrest).thenRead fun value _ _ hlast => ?_
      rw [hab.value_eq_of_kind hkind nofun]
      exact .ok (.some ⟨rfl, hlast⟩)
    · exact .ok .none

theorem Attribute.endAlike_readIfAny :
    EndAlike (Option.Rel (ReadAlike Eq)) (readIfAny ts) (readIfAny us) := by
  have hskip := h.skipBlank
  unfold readIfAny
  generalize skipBlank ts = rest at hskip
  generalize skipBlank us = rest' at hskip
  cases hskip with
  | nil => exact .ok .none
  | cons hab hrest =>
    have hassigned := (MatchAll.skipBlank hrest).any_head? fun kind => decide (kind = .equals)
    simp only [hab.kind_eq, hassigned]
    split
    · rename_i hkind
      rw [hab.value_eq_of_kind hkind nofun]
      refine (endAlike_requireSeparator h).bind fun _ _ _ => ?_
      split
      · refine (endAlike_readAssigned hrest).thenRead fun value _ _ hlast => ?_
        exact .ok (.some ⟨rfl, hlast⟩)
      · exact .ok (.some ⟨rfl, hrest⟩)
    · exact .ok .none

theorem endAlike_options : EndAlike (ReadAlike Eq)
    (many NamedOption.readIfAny NamedOption.shortens ts)
    (many NamedOption.readIfAny NamedOption.shortens us) :=
  .many (fun _ _ => NamedOption.endAlike_readIfAny) h

theorem endAlike_attributes : EndAlike (ReadAlike Eq)
    (many Attribute.readIfAny Attribute.shortens ts)
    (many Attribute.readIfAny Attribute.shortens us) :=
  .many (fun _ _ => Attribute.endAlike_readIfAny) h

/-! ### Expressions -/

theorem Directive.endAlike_readBehind {a b : Token} (hab : a.Matches b)
    (hdirective : b.kind.beginsDirective = true) :
    EndAlike (ReadAlike Eq) (readBehind a ts) (readBehind b us) := by
  have hkind := hab.kind_eq_functionName hdirective
  rw [readBehind, readBehind, hab.kind_eq, hkind, hab.value_eq_of_kind hkind nofun]
  refine (endAlike_options h).thenRead fun options _ _ hlast => ?_
  exact .ok ⟨rfl, hlast⟩

theorem endAlike_readContent : EndAlike (ReadAlike Eq) (readContent ts) (readContent us) := by
  cases h with
  | nil => exact .mismatch .nil
  | @cons a b ts us hab h =>
    unfold readContent
    simp only [hab.operand_eq, hab.kind_eq]
    split
    · have hskip := MatchAll.skipBlank h
      generalize skipBlank ts = rest at hskip
      generalize skipBlank us = rest' at hskip
      cases hskip with
      | nil => exact .ok ⟨rfl, h⟩
      | cons hnext hrest =>
        simp only [hnext.kind_eq]
        split
        · rename_i hdirective
          refine (endAlike_requireSeparator h).bind fun _ _ _ => ?_
          have hread := Directive.endAlike_readBehind hrest hnext hdirective
          exact hread.thenRead fun directive _ _ hlast => .ok ⟨rfl, hlast⟩
        · exact .ok ⟨rfl, h⟩
    · split
      · rename_i hdirective
        have hread := Directive.endAlike_readBehind h hab hdirective
        exact hread.thenRead fun directive _ _ hlast => .ok ⟨rfl, hlast⟩
      · exact .mismatch (.cons hab h)

theorem Expression.endAlike_read : EndAlike (ReadAlike Eq) (read ts) (read us) := by
  refine (endAlike_expect h .expressionOpen).bind fun opening opening' hopening => ?_
  refine (endAlike_readContent hopening.2.skipBlank).thenRead fun content _ _ hbehind => ?_
  refine (endAlike_attributes hbehind).thenRead fun attributes last last' hlast => ?_
  have hskip := hlast.skipBlank
  dsimp only at hskip ⊢
  generalize skipBlank last = rest at hskip
  generalize skipBlank last' = rest' at hskip
  cases hskip with
  | nil => exact .mismatch .nil
  | cons hab hrest =>
    simp only [hab.kind_eq]
    split
    · exact .ok ⟨rfl, hrest⟩
    · exact .mismatch (.cons hab hrest)

theorem Expression.endAlike_readIfAny :
    EndAlike (Option.Rel (ReadAlike Eq)) (readIfAny ts) (readIfAny us) := by
  have hskip := h.skipBlank
  rw [readIfAny, readIfAny, hskip.any_head? fun kind => decide (kind = .expressionOpen)]
  split
  · exact (endAlike_read hskip).map fun _ _ => .some
  · exact .ok .none

theorem endAlike_expressions : EndAlike (ReadAlike Eq)
    (many Expression.readIfAny Expression.shortens ts)
    (many Expression.readIfAny Expression.shortens us) :=
  .many (fun _ _ => Expression.endAlike_readIfAny) h

/-! ### Markup and patterns -/

theorem endAlike_readMarkupEnd (mayStandAlone : Bool) :
    EndAlike (ReadAlike Eq) (readMarkupEnd mayStandAlone ts) (readMarkupEnd mayStandAlone us) := by
  cases h with
  | nil => exact .mismatch .nil
  | cons hab h =>
    unfold readMarkupEnd
    simp only [hab.kind_eq]
    split
    · cases h with
      | nil => exact .mismatch .nil
      | cons hclose h =>
        simp only [hclose.kind_eq]
        split
        · exact .ok ⟨rfl, h⟩
        · exact .mismatch (.cons hclose h)
    · split
      · exact .ok ⟨rfl, h⟩
      · exact .mismatch (.cons hab h)

theorem Markup.endAlike_read : EndAlike (ReadAlike Eq) (read ts) (read us) := by
  refine (endAlike_expect h .expressionOpen).bind fun opening opening' hopening => ?_
  have hskip := hopening.2.skipBlank
  dsimp only at hskip ⊢
  generalize skipBlank opening.2 = rest at hskip
  generalize skipBlank opening'.2 = rest' at hskip
  cases hskip with
  | nil => exact .mismatch .nil
  | @cons a b rest rest' hab hrest =>
    simp only [hab.kind_eq]
    split
    · rename_i hbegins
      have hvalue : a.value = b.value := hab.value_eq fun hblank => by
        rw [← hab.kind_eq, hblank] at hbegins
        cases hbegins
      rw [hvalue]
      refine (endAlike_options hrest).thenRead fun options _ _ hbehind => ?_
      refine (endAlike_attributes hbehind).thenRead fun attributes _ _ hlast => ?_
      refine (endAlike_readMarkupEnd hlast.skipBlank _).thenRead fun standsAlone _ _ hclose => ?_
      exact .ok ⟨rfl, hclose⟩
    · exact .mismatch (.cons hab hrest)

theorem PatternPart.endAlike_readPlaceholder :
    EndAlike (ReadAlike Eq) (readPlaceholder ts) (readPlaceholder us) := by
  have hinside : MatchAll ((ts.drop 1).dropWhile Token.isBlank)
      ((us.drop 1).dropWhile Token.isBlank) := MatchAll.dropBlank (List.forall₂_drop 1 h)
  rw [readPlaceholder, readPlaceholder, hinside.any_head? TokenKind.beginsMarkup]
  split
  · refine (Markup.endAlike_read h).thenRead fun markup _ _ hlast => ?_
    exact .ok ⟨rfl, hlast⟩
  · refine (Expression.endAlike_read h).thenRead fun expression _ _ hlast => ?_
    exact .ok ⟨rfl, hlast⟩

theorem PatternPart.endAlike_readIfAny (closing : TokenKind) :
    EndAlike (Option.Rel (ReadAlike Eq)) (readIfAny closing ts) (readIfAny closing us) := by
  cases h with
  | nil =>
    unfold readIfAny
    dsimp only
    split
    · exact .ok .none
    · exact .mismatch .nil
  | cons hab h =>
    unfold readIfAny
    simp only [hab.kind_eq]
    split
    · rename_i hkind
      rw [hab.value_eq_of_kind hkind nofun]
      exact .ok (.some ⟨rfl, h⟩)
    · split
      · exact (endAlike_readPlaceholder (.cons hab h)).map fun _ _ => .some
      · split
        · exact .ok .none
        · exact .mismatch (.cons hab h)

theorem Pattern.endAlike_read (closing : TokenKind) :
    EndAlike (ReadAlike Eq) (Pattern.read closing ts) (Pattern.read closing us) :=
  .many (fun _ _ hitems => PatternPart.endAlike_readIfAny hitems closing) h

theorem Pattern.endAlike_readQuoted :
    EndAlike (ReadAlike Eq) (Pattern.readQuoted ts) (Pattern.readQuoted us) := by
  refine (endAlike_expect h .patternOpen).bind fun opening opening' hopening => ?_
  refine (Pattern.endAlike_read hopening.2 .patternClose).thenRead fun pattern _ _ hbehind => ?_
  refine (endAlike_expect hbehind .patternClose).bind fun close close' hclose => ?_
  exact .ok ⟨rfl, hclose.2⟩

/-! ### Matchers -/

theorem VariantKey.endAlike_read : EndAlike (ReadAlike Eq) (read ts) (read us) := by
  cases h with
  | nil => exact .mismatch .nil
  | cons hab h =>
    rw [read, read, hab.key_eq]
    split
    · exact .ok ⟨rfl, h⟩
    · exact .mismatch (.cons hab h)

theorem VariantKey.endAlike_readIfAny :
    EndAlike (Option.Rel (ReadAlike Eq)) (readIfAny ts) (readIfAny us) := by
  have hskip := h.skipBlank
  unfold readIfAny
  generalize skipBlank ts = rest at hskip
  generalize skipBlank us = rest' at hskip
  cases hskip with
  | nil => exact .mismatch .nil
  | cons hab hrest =>
    simp only [hab.key_eq, hab.kind_eq]
    split
    · exact (endAlike_requireSeparator h).bind fun _ _ _ => .ok (.some ⟨rfl, hrest⟩)
    · split
      · exact .ok .none
      · exact .mismatch (.cons hab hrest)

theorem endAlike_keys : EndAlike (ReadAlike Eq)
    (many VariantKey.readIfAny VariantKey.shortens ts)
    (many VariantKey.readIfAny VariantKey.shortens us) :=
  .many (fun _ _ => VariantKey.endAlike_readIfAny) h

theorem Variant.endAlike_read : EndAlike (ReadAlike Eq) (read ts) (read us) := by
  refine (VariantKey.endAlike_read h).thenRead fun key _ _ hbehind => ?_
  refine (endAlike_keys hbehind).thenRead fun keys _ _ hlater => ?_
  refine (Pattern.endAlike_readQuoted hlater.skipBlank).thenRead fun pattern _ _ hlast => ?_
  exact .ok ⟨rfl, hlast⟩

theorem Variant.endAlike_readIfAny :
    EndAlike (Option.Rel (ReadAlike Eq)) (readIfAny ts) (readIfAny us) := by
  have hskip := h.skipBlank
  rw [readIfAny, readIfAny, hskip.isEmpty_eq]
  split
  · exact .ok .none
  · exact (endAlike_read hskip).map fun _ _ => .some

theorem endAlike_variants : EndAlike (ReadAlike Eq)
    (many Variant.readIfAny Variant.shortens ts)
    (many Variant.readIfAny Variant.shortens us) :=
  .many (fun _ _ => Variant.endAlike_readIfAny) h

theorem Matcher.endAlike_readBehind : EndAlike (ReadAlike Eq) (readBehind ts) (readBehind us) := by
  refine (endAlike_expressions h).thenRead fun selectors _ _ hbehind => ?_
  dsimp only
  split
  · exact .mismatch hbehind
  · refine (endAlike_variants hbehind).thenRead fun variants _ _ hlast => ?_
    dsimp only
    split
    · exact .mismatch hlast.skipBlank
    · exact .ok ⟨rfl, hlast⟩

/-! ### Declarations -/

theorem Declaration.endAlike_readInput : EndAlike (ReadAlike Eq) (readInput ts) (readInput us) := by
  refine (endAlike_expect h.skipBlank .expressionOpen).bind fun opening opening' hopening => ?_
  refine (endAlike_expect hopening.2.dropBlank .variableName).bind fun _ _ _ => ?_
  refine (Expression.endAlike_read h.skipBlank).thenRead fun expression _ _ hlast => ?_
  exact .ok ⟨rfl, hlast⟩

theorem Declaration.endAlike_readAssign :
    EndAlike (ReadAlike Eq) (readAssign ts) (readAssign us) := by
  refine (endAlike_requireSeparator h).bind fun _ _ _ => ?_
  refine (endAlike_expect h.skipBlank .variableName).bind ?_
  rintro ⟨name, behind⟩ ⟨name', behind'⟩ ⟨⟨hname, hkind⟩, hbehind⟩
  refine (endAlike_expect hbehind.skipBlank .equals).bind fun equals equals' hequals => ?_
  refine (Expression.endAlike_read hequals.2.skipBlank).thenRead fun expression _ _ hlast => ?_
  rw [hname.value_eq_of_kind hkind nofun]
  exact .ok ⟨rfl, hlast⟩

theorem Declaration.endAlike_readIfAny :
    EndAlike (Option.Rel (ReadAlike Eq)) (readIfAny ts) (readIfAny us) := by
  have hskip := h.skipBlank
  unfold readIfAny
  generalize skipBlank ts = rest at hskip
  generalize skipBlank us = rest' at hskip
  cases hskip with
  | nil => exact .ok .none
  | cons hab hrest =>
    have hnotMem := hab.notMem
    rw [hab.kind_eq] at hnotMem
    simp only [hab.kind_eq]
    split
    · exact (endAlike_readInput hrest).map fun _ _ => .some
    · exact (endAlike_readAssign hrest).map fun _ _ => .some
    · rename_i hkind
      rw [hkind] at hnotMem
      exact absurd (by decide) hnotMem
    · exact .ok .none

theorem endAlike_declarations : EndAlike (ReadAlike Eq)
    (many Declaration.readIfAny Declaration.shortens ts)
    (many Declaration.readIfAny Declaration.shortens us) :=
  .many (fun _ _ => Declaration.endAlike_readIfAny) h

/-! ### Messages -/

theorem MessageBody.endAlike_read : EndAlike (ReadAlike Eq) (read ts) (read us) := by
  cases h with
  | nil => exact .mismatch .nil
  | cons hab h =>
    unfold read
    simp only [hab.kind_eq]
    split
    · refine (Matcher.endAlike_readBehind h).thenRead fun matcher _ _ hlast => ?_
      exact .ok ⟨rfl, hlast⟩
    · refine (Pattern.endAlike_readQuoted (.cons hab h)).thenRead fun pattern _ _ hlast => ?_
      exact .ok ⟨rfl, hlast⟩
    · exact .mismatch (.cons hab h)

/-- **A message is read alike from tokens that match.** -/
theorem Message.endAlike_read : EndAlike Eq (read ts) (read us) := by
  have hbegins : beginsComplexMessage ts = beginsComplexMessage us :=
    h.dropBlank.any_head? fun kind => kind.isKeyword || kind == .patternOpen
  rw [read, read, hbegins]
  split
  · refine (endAlike_declarations h).thenRead fun declarations _ _ hbehind => ?_
    refine (MessageBody.endAlike_read hbehind.skipBlank).thenRead fun body _ _ hlast => ?_
    exact (endAlike_expectEnd hlast.skipBlank).bind fun _ _ _ => .ok rfl
  · refine (Pattern.endAlike_read h .endOfInput).thenRead fun pattern _ _ hlast => ?_
    exact (endAlike_expectEnd hlast).bind fun _ _ _ => .ok rfl

end Readers

/-! ### Parsing -/

/-- Two reading errors are alike: they describe the same fault, or they expect the same, but the
places and what is found there may differ. -/
inductive ErrorCause.Alike : ErrorCause → ErrorCause → Prop where
  /-- The same fault. -/
  | illegal {description : String} {place place' : Place} :
      Alike (.illegal description place) (.illegal description place')
  /-- The same is expected. -/
  | unexpected {expected : List String} {found found' : String} {place place' : Place} :
      Alike (.unexpected expected found place) (.unexpected expected found' place')

theorem Token.Matches.alike_unexpected {a b : Token} (h : a.Matches b) (expected : List TokenKind)
    (source source' : String) :
    (a.unexpected expected source).cause.Alike (b.unexpected expected source').cause := by
  rw [unexpected, unexpected, h.kind_eq]
  split
  · rename_i hkind
    rw [toError, toError, h.value_eq_of_kind hkind nofun]
    exact .illegal
  · exact .unexpected

namespace MatchAll

variable {ts us : List Token} (h : MatchAll ts us)
include h

theorem tokensBeforeEnd :
    MatchAll (Message.tokensBeforeEnd ts) (Message.tokensBeforeEnd us) := by
  unfold Message.tokensBeforeEnd
  induction h with
  | nil => exact .nil
  | @cons a b ts us hab h ih =>
    rw [List.takeWhile_cons, List.takeWhile_cons, hab.kind_eq]
    split
    · exact .cons hab ih
    · exact .nil

theorem endToken (source source' : String) :
    (Message.endToken source ts).Matches (Message.endToken source' us) := by
  unfold Message.endToken
  induction h with
  | nil =>
    have hplain : TokenKind.endOfInput ∉ reservingKinds := by decide
    exact ⟨⟨rfl, fun _ => rfl, nofun⟩, hplain⟩
  | @cons a b ts us hab h ih =>
    rw [List.find?_cons, List.find?_cons, hab.kind_eq]
    split
    · exact hab
    · exact ih

end MatchAll

/-- **Layout is irrelevant**: lists of tokens that differ in layout only, with nothing reserved
among them, are parsed as the same message, or with errors that are alike. -/
theorem layout_irrelevant {tokens tokens' : List Token}
    (halike : List.Forall₂ Token.Alike tokens tokens')
    (hplain : ∀ token ∈ tokens, token.kind ∉ reservingKinds) (source source' : String) :
    (∃ m, Message.ofTokens source tokens = .ok m ∧ Message.ofTokens source' tokens' = .ok m) ∨
      ∃ e e', Message.ofTokens source tokens = .error e ∧
        Message.ofTokens source' tokens' = .error e' ∧ e.cause.Alike e'.cause := by
  have hmatch : MatchAll tokens tokens' := by
    induction halike with
    | nil => exact .nil
    | cons hab _ ih =>
      obtain ⟨hfirst, hrest⟩ := List.forall_mem_cons.1 hplain
      exact .cons ⟨hab, hfirst⟩ (ih hrest)
  have hread := Message.endAlike_read hmatch.tokensBeforeEnd
  have hend := hmatch.endToken source source'
  rw [Message.ofTokens, Message.ofTokens]
  generalize Message.read (Message.tokensBeforeEnd tokens) = outcome at hread
  generalize Message.read (Message.tokensBeforeEnd tokens') = outcome' at hread
  cases hread with
  | ok h =>
    subst h
    exact .inl ⟨_, rfl, rfl⟩
  | error hfound =>
    refine .inr ⟨_, _, rfl, rfl, ?_⟩
    cases hfound with
    | none => exact hend.alike_unexpected _ source source'
    | some hab => exact hab.alike_unexpected _ source source'

/-- An expression with a function, on one line. -/
def callTokens : List Token :=
  [⟨.expressionOpen, "\x7b", ⟨0, 1, 1, 1⟩⟩, ⟨.variableName, "x", ⟨1, 3, 1, 2⟩⟩,
    ⟨.blank, " ", ⟨3, 4, 1, 4⟩⟩, ⟨.functionName, "f", ⟨4, 6, 1, 5⟩⟩,
    ⟨.expressionClose, "\x7d", ⟨6, 7, 1, 7⟩⟩]

/-- The same expression on two lines, with a bidi mark before the function. -/
def spreadTokens : List Token :=
  [⟨.expressionOpen, "\x7b", ⟨0, 1, 1, 1⟩⟩, ⟨.variableName, "x", ⟨1, 3, 1, 2⟩⟩,
    ⟨.blank, "\n\u200e", ⟨3, 7, 1, 4⟩⟩, ⟨.functionName, "f", ⟨7, 9, 2, 2⟩⟩,
    ⟨.expressionClose, "\x7d", ⟨9, 10, 2, 4⟩⟩]

/-- They are parsed as the same message. -/
theorem layout_irrelevant_spread : List.Forall₂ Token.Alike callTokens spreadTokens ∧
    (∀ token ∈ callTokens, token.kind ∉ reservingKinds) ∧
      ∃ m, Message.ofTokens "\x7b$x :f\x7d" callTokens = .ok m ∧
        Message.ofTokens "\x7b$x\n\u200e:f\x7d" spreadTokens = .ok m := by
  have halike : List.Forall₂ Token.Alike callTokens spreadTokens :=
    .cons ⟨rfl, fun _ => rfl, nofun⟩ <| .cons ⟨rfl, fun _ => rfl, nofun⟩ <|
      .cons ⟨rfl, fun h => absurd rfl h, fun _ => by decide⟩ <|
        .cons ⟨rfl, fun _ => rfl, nofun⟩ <| .cons ⟨rfl, fun _ => rfl, nofun⟩ .nil
  have hplain : ∀ token ∈ callTokens, token.kind ∉ reservingKinds := by decide
  have hsome : (Message.ofTokens "\x7b$x :f\x7d" callTokens).toOption.isSome = true := by
    decide +kernel
  refine ⟨halike, hplain, (layout_irrelevant halike hplain _ _).resolve_right ?_⟩
  rintro ⟨e, e', herror, -⟩
  rw [herror] at hsome
  cases hsome

end MessageFormat
