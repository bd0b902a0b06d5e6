import MessageFormat.Message.Reading

/-!
# Where reading fails

A reading never leaves the tokens that it is given: what it leaves is a rear part of them, and what
it finds fault with is one of them, or their end.

* `StaysIn.bind`, `StaysIn.many` : readings one behind the other, and repeated readings;
* `Message.staysIn_read` : reading a message fails at one of its tokens, or at their end.
-/

namespace MessageFormat

variable {α β : Type} {tokens : List Token}

/-! ### Staying in some tokens -/

/-- The token that the mismatch found, if it found one, is among some. -/
def Mismatch.IsAmong (m : Mismatch) (tokens : List Token) : Prop :=
  ∀ token ∈ m.found, token ∈ tokens

/-- A reading leaves a rear part of the tokens, which `rest` takes from its outcome, or it fails at
one of them or at their end. -/
def StaysIn (tokens : List Token) (rest : α → List Token) (outcome : Except Mismatch α) : Prop :=
  (∀ a, outcome = .ok a → rest a <:+ tokens) ∧ ∀ m, outcome = .error m → m.IsAmong tokens

/-- What is left behind an item, if there is one. -/
def restOfItem : Option (α × List Token) → List Token
  | none => []
  | some (_, rest) => rest

/-- Nothing is left, or nothing is said about it. -/
def noRest (_ : α) : List Token := []

namespace StaysIn

variable {rest : α → List Token} {rest' : β → List Token}

theorem ok {a : α} (h : rest a <:+ tokens) : StaysIn tokens rest (.ok a) :=
  ⟨by rintro _ ⟨⟩; exact h, nofun⟩

theorem mismatch {expected : List TokenKind} {behind : List Token} (h : behind <:+ tokens) :
    StaysIn tokens rest (mismatch expected behind) := by
  refine ⟨nofun, ?_⟩
  rintro _ ⟨⟩ token htoken
  exact h.mem (List.mem_of_mem_head? htoken)

theorem mismatch_bind {expected : List TokenKind} {behind : List Token}
    {f : α → Except Mismatch β} (h : behind <:+ tokens) :
    StaysIn tokens rest' (MessageFormat.mismatch expected behind >>= f) :=
  .mismatch h

theorem bind {x : Except Mismatch α} {f : α → Except Mismatch β} (hx : StaysIn tokens rest x)
    (hf : ∀ a, rest a <:+ tokens → StaysIn tokens rest' (f a)) :
    StaysIn tokens rest' (x >>= f) := by
  cases x with
  | error m => exact ⟨nofun, fun _ h => by cases h; exact hx.2 m rfl⟩
  | ok a => exact hf a (hx.1 a rfl)

theorem map {x : Except Mismatch α} {f : α → β} (hx : StaysIn tokens rest x)
    (hf : ∀ a, rest' (f a) = rest a) : StaysIn tokens rest' (x.map f) := by
  cases x with
  | error m => exact ⟨nofun, fun _ h => by cases h; exact hx.2 m rfl⟩
  | ok a => exact ok (by rw [hf]; exact hx.1 a rfl)

/-- A reading of a rear part of the tokens stays in the tokens. -/
theorem mono {behind : List Token} {x : Except Mismatch α} (hx : StaysIn behind rest x)
    (h : behind <:+ tokens) : StaysIn tokens rest x :=
  ⟨fun a ha => (hx.1 a ha).trans h, fun m hm token htoken => h.mem (hx.2 m hm token htoken)⟩

theorem many {item : List Token → Except Mismatch (Option (α × List Token))}
    {shortens : Shortens item} (hitem : ∀ tokens, StaysIn tokens restOfItem (item tokens))
    (tokens : List Token) : StaysIn tokens Prod.snd (many item shortens tokens) := by
  fun_induction MessageFormat.many item shortens tokens with
  | case1 tokens m hm =>
    have h := hitem tokens
    rw [hm] at h
    refine ⟨?_, ?_⟩
    · rintro a ⟨⟩
    · rintro _ ⟨⟩
      exact h.2 m rfl
  | case2 tokens hnone => exact ok List.suffix_rfl
  | case3 tokens a middle hsome ih =>
    have hmiddle : middle <:+ tokens := (hitem tokens).1 _ hsome
    exact (ih.mono hmiddle).map fun _ => rfl

end StaysIn

/-! ### Single tokens -/

theorem skipBlank_suffix (tokens : List Token) : skipBlank tokens <:+ tokens := by
  cases tokens with
  | nil => exact List.suffix_rfl
  | cons token rest =>
    rw [skipBlank]
    split
    · exact List.suffix_cons token rest
    · exact List.suffix_rfl

theorem suffix_of_skipBlank {token : Token} {rest : List Token}
    (h : skipBlank tokens = token :: rest) : rest <:+ tokens := by
  have hsuffix := skipBlank_suffix tokens
  rw [h] at hsuffix
  exact (List.suffix_cons token rest).trans hsuffix

theorem staysIn_requireSeparator (tokens : List Token) :
    StaysIn tokens noRest (requireSeparator tokens) := by
  unfold requireSeparator
  split
  · exact .ok List.nil_suffix
  · exact .mismatch (skipBlank_suffix tokens)

theorem staysIn_expect (kind : TokenKind) (tokens : List Token) :
    StaysIn tokens Prod.snd (expect kind tokens) := by
  cases tokens with
  | nil => exact .mismatch List.suffix_rfl
  | cons token rest =>
    rw [expect]
    split
    · exact .ok (List.suffix_cons token rest)
    · exact .mismatch List.suffix_rfl

theorem staysIn_expectEnd (tokens : List Token) : StaysIn tokens noRest (expectEnd tokens) := by
  unfold expectEnd
  split
  · exact .ok List.nil_suffix
  · exact .mismatch List.suffix_rfl

/-! ### Operands, options and attributes -/

theorem Operand.staysIn_read (tokens : List Token) :
    StaysIn tokens Prod.snd (Operand.read tokens) := by
  cases tokens with
  | nil => exact .mismatch List.suffix_rfl
  | cons token rest =>
    unfold Operand.read
    dsimp only
    split
    · exact .ok (List.suffix_cons token rest)
    · exact .mismatch List.suffix_rfl

theorem staysIn_readAssigned (tokens : List Token) :
    StaysIn tokens Prod.snd (readAssigned tokens) := by
  refine ((staysIn_expect .equals _).mono (skipBlank_suffix tokens)).bind fun equals hequals => ?_
  exact (Operand.staysIn_read _).mono ((skipBlank_suffix equals.2).trans hequals)

theorem NamedOption.staysIn_readIfAny (tokens : List Token) :
    StaysIn tokens restOfItem (NamedOption.readIfAny tokens) := by
  unfold NamedOption.readIfAny
  split
  · exact .ok List.nil_suffix
  · rename_i token behind hskip
    split
    · refine (staysIn_requireSeparator tokens).bind fun _ _ => ?_
      refine ((staysIn_readAssigned behind).mono (suffix_of_skipBlank hskip)).bind fun value h => ?_
      exact .ok h
    · exact .ok List.nil_suffix

theorem Attribute.staysIn_readIfAny (tokens : List Token) :
    StaysIn tokens restOfItem (Attribute.readIfAny tokens) := by
  unfold Attribute.readIfAny
  split
  · exact .ok List.nil_suffix
  · rename_i token behind hskip
    have hbehind := suffix_of_skipBlank hskip
    split
    · refine (staysIn_requireSeparator tokens).bind fun _ _ => ?_
      split
      · exact ((staysIn_readAssigned behind).mono hbehind).bind fun value h => .ok h
      · exact .ok hbehind
    · exact .ok List.nil_suffix

/-! ### Expressions and markup -/

theorem readBody_suffix (tokens : List Token) : (readBody tokens).2 <:+ tokens := by
  have hdrop : tokens.dropWhile Token.isOfBody <:+ tokens := List.dropWhile_suffix _
  unfold readBody
  dsimp only
  split
  · rename_i last hlast
    split
    · -- the last run of blanks stands right before what is behind the body
      obtain ⟨front, hfront⟩ := List.getLast?_eq_some_iff.1 hlast
      refine ⟨front, ?_⟩
      rw [List.append_cons, ← hfront, List.takeWhile_append_dropWhile]
    · exact hdrop
  · exact hdrop

theorem Directive.staysIn_readBehind (token : Token) (tokens : List Token) :
    StaysIn tokens Prod.snd (Directive.readBehind token tokens) := by
  unfold Directive.readBehind
  split
  · exact (StaysIn.many NamedOption.staysIn_readIfAny tokens).bind fun options h => .ok h
  · exact .ok (readBody_suffix tokens)

theorem staysIn_readContent (tokens : List Token) :
    StaysIn tokens Prod.snd (readContent tokens) := by
  cases tokens with
  | nil => exact .mismatch List.suffix_rfl
  | cons token rest =>
    have hrest := List.suffix_cons token rest
    unfold readContent
    dsimp only
    split
    · split
      · exact .ok hrest
      · rename_i next behind hskip
        split
        · refine ((staysIn_requireSeparator rest).mono hrest).bind fun _ _ => ?_
          have hbehind := (suffix_of_skipBlank hskip).trans hrest
          exact ((Directive.staysIn_readBehind next behind).mono hbehind).bind fun _ h => .ok h
        · exact .ok hrest
    · split
      · exact ((Directive.staysIn_readBehind token rest).mono hrest).bind fun _ h => .ok h
      · exact .mismatch List.suffix_rfl

theorem Expression.staysIn_read (tokens : List Token) :
    StaysIn tokens Prod.snd (Expression.read tokens) := by
  refine (staysIn_expect .expressionOpen tokens).bind fun opening hopening => ?_
  have hinside := (skipBlank_suffix opening.2).trans hopening
  refine ((staysIn_readContent _).mono hinside).bind fun content hcontent => ?_
  refine ((StaysIn.many Attribute.staysIn_readIfAny _).mono hcontent).bind
    fun attributes hattributes => ?_
  dsimp only
  have hend := (skipBlank_suffix attributes.2).trans hattributes
  split
  · exact .mismatch List.nil_suffix
  · rename_i token rest hskip
    rw [hskip] at hend
    split
    · exact .ok ((List.suffix_cons token rest).trans hend)
    · exact .mismatch hend

theorem Expression.staysIn_readIfAny (tokens : List Token) :
    StaysIn tokens restOfItem (Expression.readIfAny tokens) := by
  unfold Expression.readIfAny
  split
  · exact ((Expression.staysIn_read _).mono (skipBlank_suffix tokens)).map fun _ => rfl
  · exact .ok List.nil_suffix

theorem staysIn_readMarkupEnd (mayStandAlone : Bool) (tokens : List Token) :
    StaysIn tokens Prod.snd (readMarkupEnd mayStandAlone tokens) := by
  cases tokens with
  | nil => exact .mismatch List.suffix_rfl
  | cons token rest =>
    have hrest := List.suffix_cons token rest
    unfold readMarkupEnd
    dsimp only
    split
    · split
      · exact .mismatch List.nil_suffix
      · rename_i close behind
        split
        · exact .ok ((List.suffix_cons close behind).trans hrest)
        · exact .mismatch hrest
    · split
      · exact .ok hrest
      · exact .mismatch List.suffix_rfl

theorem Markup.staysIn_read (tokens : List Token) :
    StaysIn tokens Prod.snd (Markup.read tokens) := by
  refine (staysIn_expect .expressionOpen tokens).bind fun opening hopening => ?_
  have hinside := (skipBlank_suffix opening.2).trans hopening
  dsimp only
  split
  · exact .mismatch List.nil_suffix
  · rename_i token rest hskip
    rw [hskip] at hinside
    split
    · have hrest := (List.suffix_cons token rest).trans hinside
      refine ((StaysIn.many NamedOption.staysIn_readIfAny rest).mono hrest).bind
        fun options hoptions => ?_
      refine ((StaysIn.many Attribute.staysIn_readIfAny _).mono hoptions).bind
        fun attributes hattributes => ?_
      have hend := (skipBlank_suffix attributes.2).trans hattributes
      exact ((staysIn_readMarkupEnd _ _).mono hend).bind fun _ h => .ok h
    · exact .mismatch hinside

/-! ### Patterns and matchers -/

theorem PatternPart.staysIn_readPlaceholder (tokens : List Token) :
    StaysIn tokens Prod.snd (PatternPart.readPlaceholder tokens) := by
  unfold PatternPart.readPlaceholder
  split
  · exact (Markup.staysIn_read tokens).bind fun _ h => .ok h
  · exact (Expression.staysIn_read tokens).bind fun _ h => .ok h

theorem PatternPart.staysIn_readIfAny (closing : TokenKind) (tokens : List Token) :
    StaysIn tokens restOfItem (PatternPart.readIfAny closing tokens) := by
  cases tokens with
  | nil =>
    unfold PatternPart.readIfAny
    dsimp only
    split
    · exact .ok List.nil_suffix
    · exact .mismatch List.suffix_rfl
  | cons token rest =>
    unfold PatternPart.readIfAny
    dsimp only
    split
    · exact .ok (List.suffix_cons token rest)
    · split
      · exact (PatternPart.staysIn_readPlaceholder _).map fun _ => rfl
      · split
        · exact .ok List.nil_suffix
        · exact .mismatch List.suffix_rfl

theorem Pattern.staysIn_read (closing : TokenKind) (tokens : List Token) :
    StaysIn tokens Prod.snd (Pattern.read closing tokens) :=
  .many (PatternPart.staysIn_readIfAny closing) tokens

theorem Pattern.staysIn_readQuoted (tokens : List Token) :
    StaysIn tokens Prod.snd (Pattern.readQuoted tokens) := by
  refine (staysIn_expect .patternOpen tokens).bind fun opening hopening => ?_
  refine ((Pattern.staysIn_read .patternClose _).mono hopening).bind fun pattern hpattern => ?_
  exact ((staysIn_expect .patternClose _).mono hpattern).bind fun _ h => .ok h

theorem VariantKey.staysIn_read (tokens : List Token) :
    StaysIn tokens Prod.snd (VariantKey.read tokens) := by
  cases tokens with
  | nil => exact .mismatch List.suffix_rfl
  | cons token rest =>
    unfold VariantKey.read
    dsimp only
    split
    · exact .ok (List.suffix_cons token rest)
    · exact .mismatch List.suffix_rfl

theorem VariantKey.staysIn_readIfAny (tokens : List Token) :
    StaysIn tokens restOfItem (VariantKey.readIfAny tokens) := by
  have hskipped := skipBlank_suffix tokens
  unfold VariantKey.readIfAny
  split
  · exact .mismatch List.nil_suffix
  · rename_i token rest hskip
    rw [hskip] at hskipped
    split
    · exact (staysIn_requireSeparator tokens).bind fun _ _ => .ok (suffix_of_skipBlank hskip)
    · split
      · exact .ok List.nil_suffix
      · exact .mismatch hskipped

theorem Variant.staysIn_read (tokens : List Token) :
    StaysIn tokens Prod.snd (Variant.read tokens) := by
  refine (VariantKey.staysIn_read tokens).bind fun key hkey => ?_
  refine ((StaysIn.many VariantKey.staysIn_readIfAny _).mono hkey).bind fun keys hkeys => ?_
  have hpattern := (skipBlank_suffix keys.2).trans hkeys
  exact ((Pattern.staysIn_readQuoted _).mono hpattern).bind fun _ h => .ok h

theorem Variant.staysIn_readIfAny (tokens : List Token) :
    StaysIn tokens restOfItem (Variant.readIfAny tokens) := by
  unfold Variant.readIfAny
  split
  · exact .ok List.nil_suffix
  · exact ((Variant.staysIn_read _).mono (skipBlank_suffix tokens)).map fun _ => rfl

theorem Matcher.staysIn_readBehind (tokens : List Token) :
    StaysIn tokens Prod.snd (Matcher.readBehind tokens) := by
  refine (StaysIn.many Expression.staysIn_readIfAny tokens).bind fun selectors hselectors => ?_
  dsimp only
  split
  · exact .mismatch_bind hselectors
  · refine ((StaysIn.many Variant.staysIn_readIfAny _).mono hselectors).bind
      fun variants hvariants => ?_
    split
    · exact .mismatch_bind ((skipBlank_suffix _).trans hvariants)
    · exact .ok hvariants

/-! ### Declarations and messages -/

theorem Declaration.staysIn_readInput (tokens : List Token) :
    StaysIn tokens Prod.snd (Declaration.readInput tokens) := by
  have hskip := skipBlank_suffix tokens
  refine ((staysIn_expect .expressionOpen _).mono hskip).bind fun opening hopening => ?_
  have hinside := (List.dropWhile_suffix Token.isBlank).trans hopening
  refine ((staysIn_expect .variableName _).mono hinside).bind fun _ _ => ?_
  exact ((Expression.staysIn_read _).mono hskip).bind fun _ h => .ok h

theorem Declaration.staysIn_readAssign (tokens : List Token) :
    StaysIn tokens Prod.snd (Declaration.readAssign tokens) := by
  refine (staysIn_requireSeparator tokens).bind fun _ _ => ?_
  refine ((staysIn_expect .variableName _).mono (skipBlank_suffix tokens)).bind
    fun variable' hvariable => ?_
  have hbehind := (skipBlank_suffix variable'.2).trans hvariable
  refine ((staysIn_expect .equals _).mono hbehind).bind fun equals hequals => ?_
  have hvalue := (skipBlank_suffix equals.2).trans hequals
  exact ((Expression.staysIn_read _).mono hvalue).bind fun _ h => .ok h

theorem Declaration.staysIn_readReserved (keyword : String) (tokens : List Token) :
    StaysIn tokens Prod.snd (Declaration.readReserved keyword tokens) := by
  refine ((StaysIn.many Expression.staysIn_readIfAny _).mono (readBody_suffix tokens)).bind
    fun expressions hexpressions => ?_
  dsimp only
  split
  · exact .mismatch_bind hexpressions
  · exact .ok hexpressions

theorem Declaration.staysIn_readIfAny (tokens : List Token) :
    StaysIn tokens restOfItem (Declaration.readIfAny tokens) := by
  unfold Declaration.readIfAny
  split
  · exact .ok List.nil_suffix
  · rename_i token rest hskip
    have hrest := suffix_of_skipBlank hskip
    split
    · exact ((Declaration.staysIn_readInput rest).mono hrest).map fun _ => rfl
    · exact ((Declaration.staysIn_readAssign rest).mono hrest).map fun _ => rfl
    · exact ((Declaration.staysIn_readReserved token.value rest).mono hrest).map fun _ => rfl
    · exact .ok List.nil_suffix

theorem MessageBody.staysIn_read (tokens : List Token) :
    StaysIn tokens Prod.snd (MessageBody.read tokens) := by
  cases tokens with
  | nil => exact .mismatch List.suffix_rfl
  | cons token rest =>
    have hrest := List.suffix_cons token rest
    unfold MessageBody.read
    dsimp only
    split
    · exact ((Matcher.staysIn_readBehind rest).mono hrest).bind fun _ h => .ok h
    · exact (Pattern.staysIn_readQuoted _).bind fun _ h => .ok h
    · exact .mismatch List.suffix_rfl

/-- **Reading a message fails at one of its tokens, or at their end.** -/
theorem Message.staysIn_read (tokens : List Token) :
    StaysIn tokens noRest (Message.read tokens) := by
  unfold Message.read
  split
  · refine (StaysIn.many Declaration.staysIn_readIfAny tokens).bind
      fun declarations hdeclarations => ?_
    have hbehind := (skipBlank_suffix declarations.2).trans hdeclarations
    refine ((MessageBody.staysIn_read _).mono hbehind).bind fun body hbody => ?_
    have hend := (skipBlank_suffix body.2).trans hbody
    exact ((staysIn_expectEnd _).mono hend).bind fun _ _ => .ok List.nil_suffix
  · refine (Pattern.staysIn_read .endOfInput tokens).bind fun pattern hpattern => ?_
    exact ((staysIn_expectEnd _).mono hpattern).bind fun _ _ => .ok List.nil_suffix

end MessageFormat
