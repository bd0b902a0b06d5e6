import MessageFormat.Proofs.Lexing

/-!
# Words

What tokens derive depends on what they are and say, and not on where they stand: on their words.
This is shown for the parts of patterns, and with it that no token of a pattern is a pair of closing
braces, so that such a pair always ends the pattern.

* `Worded` : no closing braces, and a property that depends on words only;
* `Worded.cons`, `Worded.append` : a token or some tokens before others;
* `Pattern.Derives.worded` : the tokens of a pattern.
-/

namespace MessageFormat

/-- What a token is and says, wherever it stands. -/
def Token.word (token : Token) : TokenKind × String := (token.kind, token.value)

/-- None of the tokens is a pair of closing braces, and `P` holds of all tokens with the same
words. -/
structure Worded (tokens : List Token) (P : List Token → Prop) : Prop where
  /-- None of the tokens ends a quoted pattern. -/
  unclosed : ∀ token ∈ tokens, token.kind ≠ .patternClose
  /-- The property depends on the words of the tokens. -/
  same : ∀ others : List Token, others.map Token.word = tokens.map Token.word → P others

/-- A token of the kind with the value, and then some tokens of which `P` holds. -/
def Headed (kind : TokenKind) (value : String) (P : List Token → Prop) (tokens : List Token) :
    Prop :=
  ∃ head rest, tokens = head :: rest ∧ head.kind = kind ∧ head.value = value ∧ P rest

/-! ### Tokens side by side -/

namespace Worded

variable {P Q R : List Token → Prop}

theorem nil (h : P []) : Worded [] P :=
  ⟨nofun, fun _ hwords => List.map_eq_nil_iff.1 hwords ▸ h⟩

theorem mono {tokens : List Token} (h : Worded tokens P) (hPQ : ∀ others, P others → Q others) :
    Worded tokens Q :=
  ⟨h.unclosed, fun others hwords => hPQ others (h.same others hwords)⟩

/-- A property and another one that depends on words. -/
theorem and {tokens : List Token} (h : Worded tokens P)
    (hQ : ∀ others : List Token, others.map Token.word = tokens.map Token.word → Q others) :
    Worded tokens fun others => P others ∧ Q others :=
  ⟨h.unclosed, fun others hwords => ⟨h.same others hwords, hQ others hwords⟩⟩

theorem append {front rear : List Token} (hfront : Worded front P) (hrear : Worded rear Q)
    (hR : ∀ a b, P a → Q b → R (a ++ b)) : Worded (front ++ rear) R := by
  refine ⟨List.forall_mem_append.2 ⟨hfront.unclosed, hrear.unclosed⟩, fun others hwords => ?_⟩
  rw [List.map_append] at hwords
  obtain ⟨a, b, rfl, ha, hb⟩ := List.map_eq_append_iff.1 hwords
  exact hR a b (hfront.same a ha) (hrear.same b hb)

theorem andThen {front rear : List Token} (hfront : Worded front P) (hrear : Worded rear Q) :
    Worded (front ++ rear) (Then P Q) :=
  hfront.append hrear fun a b ha hb => ⟨a, b, rfl, ha, hb⟩

/-- A token of a kind before others. -/
theorem headed {token : Token} {tokens : List Token} {kind : TokenKind} (hkind : token.kind = kind)
    (hopen : kind ≠ .patternClose) (later : Worded tokens P) :
    Worded (token :: tokens) (Headed kind token.value P) := by
  refine ⟨List.forall_mem_cons.2 ⟨hkind ▸ hopen, later.unclosed⟩, fun others hwords => ?_⟩
  rw [List.map_cons] at hwords
  obtain ⟨head, rest, rfl, hword, hrest⟩ := List.map_eq_cons_iff.1 hwords
  obtain ⟨hheadkind, hvalue⟩ := Prod.mk.inj hword
  exact ⟨head, rest, rfl, hheadkind.trans hkind, hvalue, later.same rest hrest⟩

theorem cons {token : Token} {tokens : List Token} {kind : TokenKind} (hkind : token.kind = kind)
    (hopen : kind ≠ .patternClose) (later : Worded tokens P)
    (hQ : ∀ (head : Token) rest, head.kind = kind → head.value = token.value → P rest →
      Q (head :: rest)) : Worded (token :: tokens) Q := by
  refine (headed hkind hopen later).mono ?_
  rintro _ ⟨head, rest, rfl, hhead, hvalue, hrest⟩
  exact hQ head rest hhead hvalue hrest

/-- A token of a kind alone. -/
theorem token {token : Token} {kind : TokenKind} (hkind : token.kind = kind)
    (hopen : kind ≠ .patternClose)
    (hP : ∀ other : Token, other.kind = kind → other.value = token.value → P [other]) :
    Worded [token] P := by
  have hnil : Worded [] (· = []) := .nil rfl
  refine cons hkind hopen hnil ?_
  rintro other _ hother hvalue rfl
  exact hP other hother hvalue

end Worded

/-! ### Gaps and repetitions -/

theorem Gap.worded {tokens : List Token} (h : Gap tokens) : Worded tokens Gap := by
  cases h with
  | nothing => exact .nil .nothing
  | blank h =>
    exact .token (beq_iff_eq.1 h) nofun fun other hkind _ => .blank (beq_iff_eq.2 hkind)

theorem Separator.worded {tokens : List Token} (h : Separator tokens) :
    Worded tokens Separator := by
  cases h with
  | @space token h =>
    obtain ⟨hblank, hspace⟩ := Bool.and_eq_true_iff.1 h
    refine .token (beq_iff_eq.1 hblank) nofun fun other hkind hvalue => .space ?_
    rw [Token.isSeparator, Token.isBlank, hkind, hvalue, hspace]
    rfl

section Repetition

variable {α : Type} {gap : List Token → Prop} {item : List Token → α → Prop}

theorem Behind.worded {tokens : List Token} {a : α} (h : Behind gap item tokens a)
    (hgap : ∀ tokens, gap tokens → Worded tokens gap)
    (hitem : ∀ tokens a, item tokens a → Worded tokens (item · a)) :
    Worded tokens (Behind gap item · a) := by
  cases h with
  | intro hfront h => exact (hgap _ hfront).append (hitem _ _ h) fun _ _ hfront h => .intro hfront h

theorem Repeated.worded {tokens : List Token} {as : List α} (h : Repeated item tokens as)
    (hitem : ∀ tokens a, item tokens a → Worded tokens (item · a)) :
    Worded tokens (Repeated item · as) := by
  induction h with
  | nil => exact .nil .nil
  | cons h _ ih => exact (hitem _ _ h).append ih fun _ _ h later => .cons h later

end Repetition

/-! ### Literals, options and attributes -/

theorem Literal.Derives.worded {tokens : List Token} {l : Literal}
    (h : Literal.Derives tokens l) : Worded tokens (Literal.Derives · l) := by
  cases h with
  | quoted h => exact .token h nofun fun _ hkind hvalue => hvalue ▸ .quoted hkind
  | name h => exact .token h nofun fun _ hkind hvalue => hvalue ▸ .name hkind
  | number h => exact .token h nofun fun _ hkind hvalue => hvalue ▸ .number hkind

theorem Operand.Derives.worded {tokens : List Token} {o : Operand}
    (h : Operand.Derives tokens o) : Worded tokens (Operand.Derives · o) := by
  cases h with
  | literal h => exact h.worded.mono fun _ h => .literal h
  | variableName h => exact .token h nofun fun _ hkind hvalue => hvalue ▸ .variableName hkind

theorem Assigned.worded {tokens : List Token} {value : Operand} (h : Assigned tokens value) :
    Worded tokens (Assigned · value) := by
  cases h with
  | intro hbefore hequals hbehind h =>
    refine hbefore.worded.append (.headed hequals nofun (hbehind.worded.andThen h.worded)) ?_
    rintro _ _ hbefore ⟨_, _, rfl, hequals, -, _, _, rfl, hbehind, h⟩
    exact .intro hbefore hequals hbehind h

theorem NamedOption.Derives.worded {tokens : List Token} {o : NamedOption}
    (h : NamedOption.Derives tokens o) : Worded tokens (NamedOption.Derives · o) := by
  cases h with
  | intro hname h =>
    exact .cons hname nofun h.worded fun _ _ hkind hvalue h => hvalue ▸ .intro hkind h

theorem Attribute.Derives.worded {tokens : List Token} {a : Attribute}
    (h : Attribute.Derives tokens a) : Worded tokens (Attribute.Derives · a) := by
  cases h with
  | bare hname => exact .token hname nofun fun _ hkind hvalue => hvalue ▸ .bare hkind
  | assigned hname h =>
    exact .cons hname nofun h.worded fun _ _ hkind hvalue h => hvalue ▸ .assigned hkind h

theorem worded_namedOptions {tokens : List Token} {options : List NamedOption}
    (h : NamedOptions tokens options) : Worded tokens (NamedOptions · options) :=
  Repeated.worded h fun _ _ h =>
    h.worded (fun _ => Separator.worded) fun _ _ => NamedOption.Derives.worded

theorem worded_attributes {tokens : List Token} {attributes : List Attribute}
    (h : Attributes tokens attributes) : Worded tokens (Attributes · attributes) :=
  Repeated.worded h fun _ _ h =>
    h.worded (fun _ => Separator.worded) fun _ _ => Attribute.Derives.worded

/-! ### Kinds of tokens -/

section Kinds

variable {tokens others : List Token} (hwords : others.map Token.word = tokens.map Token.word)
include hwords

theorem map_kind_of_words {β : Type} (f : TokenKind → β) :
    others.map (fun token => f token.kind) = tokens.map fun token => f token.kind := by
  simpa [Token.word, Function.comp_def] using congrArg (List.map fun word => f word.1) hwords

theorem map_value_of_words : others.map Token.value = tokens.map Token.value := by
  simpa [Token.word, Function.comp_def] using congrArg (List.map Prod.snd) hwords

theorem ne_nil_of_words (h : tokens ≠ []) : others ≠ [] := by
  rintro rfl
  exact h (List.map_eq_nil_iff.1 hwords.symm)

variable (p : TokenKind → Bool) {b : Bool}

theorem forall_mem_of_words (h : ∀ token ∈ tokens, p token.kind = b) :
    ∀ token ∈ others, p token.kind = b := by
  have hmap := map_kind_of_words hwords p
  intro token htoken
  obtain ⟨other, hother, heq⟩ := List.mem_map.1 (hmap ▸ List.mem_map_of_mem htoken)
  rw [← heq, h other hother]

theorem forall_head?_of_words (h : ∀ token ∈ tokens.head?, p token.kind = b) :
    ∀ token ∈ others.head?, p token.kind = b := by
  cases tokens with
  | nil =>
    rw [List.map_eq_nil_iff.1 hwords]
    nofun
  | cons first rest =>
    obtain ⟨head, _, rfl, hword, -⟩ := List.map_eq_cons_iff.1 hwords
    have hkind : head.kind = first.kind := congrArg Prod.fst hword
    rintro _ ⟨⟩
    rw [hkind, h first rfl]

theorem forall_getLast?_of_words (h : ∀ token ∈ tokens.getLast?, p token.kind = b) :
    ∀ token ∈ others.getLast?, p token.kind = b := by
  have hreverse : others.reverse.map Token.word = tokens.reverse.map Token.word := by
    rw [List.map_reverse, hwords, List.map_reverse]
  simp only [← List.head?_reverse] at h ⊢
  exact forall_head?_of_words hreverse p h

end Kinds

/-! ### Directives -/

theorem worded_bodyText {run : List Token} (hne : run ≠ [])
    (hrun : ∀ token ∈ run, token.isBodyText = true) :
    Worded run fun others => others ≠ [] ∧ (∀ token ∈ others, token.isBodyText = true) ∧
      others.map Token.value = run.map Token.value := by
  refine ⟨fun token htoken hkind => ?_, fun others hwords => ⟨ne_nil_of_words hwords hne,
    forall_mem_of_words hwords (fun kind => kind == .blank || kind == .reservedText) hrun, map_value_of_words hwords⟩⟩
  have htext := hrun token htoken
  rw [Token.isBodyText, Token.isBlank, hkind] at htext
  cases htext

theorem BodyPieces.worded {tokens : List Token} {pieces : List BodyPiece}
    (h : BodyPieces tokens pieces) : Worded tokens (BodyPieces · pieces) := by
  induction h with
  | nil => exact .nil .nil
  | quoted h _ ih =>
    exact .cons h nofun ih fun _ _ hkind hvalue later => hvalue ▸ .quoted hkind later
  | text hne hrun hstop _ ih =>
    have hlater := ih.and fun _ hwords =>
      forall_head?_of_words hwords (fun kind => kind == .blank || kind == .reservedText) hstop
    refine (worded_bodyText hne hrun).append hlater ?_
    rintro _ _ ⟨hne, hrun, hvalues⟩ ⟨later, hstop⟩
    rw [← hvalues]
    exact .text hne hrun hstop later

theorem ReservedBody.worded {tokens : List Token} {pieces : List BodyPiece}
    (h : ReservedBody tokens pieces) : Worded tokens (ReservedBody · pieces) := by
  cases h with
  | nothing => exact .nil .nothing
  | pieces hgap hne hhead hlast h =>
    have hpieces := h.worded.and fun _ hwords => And.intro (ne_nil_of_words hwords hne)
      (And.intro (forall_head?_of_words hwords (· == .blank) hhead)
        (forall_getLast?_of_words hwords (· == .blank) hlast))
    refine hgap.worded.append hpieces ?_
    rintro _ _ hgap ⟨h, hne, hhead, hlast⟩
    exact .pieces hgap hne hhead hlast h

theorem Directive.Derives.worded {tokens : List Token} {d : Directive}
    (h : Directive.Derives tokens d) : Worded tokens (Directive.Derives · d) := by
  cases h with
  | function hname hoptions =>
    exact .cons hname nofun (worded_namedOptions hoptions) fun _ _ hkind hvalue hoptions =>
      hvalue ▸ .function hkind hoptions
  | reserved htoken hsigil hbody =>
    exact .cons htoken nofun hbody.worded fun _ _ hkind hvalue hbody =>
      .reserved hkind (hvalue.trans hsigil) hbody
  | privateUse htoken hsigil hbody =>
    exact .cons htoken nofun hbody.worded fun _ _ hkind hvalue hbody =>
      .privateUse hkind (hvalue.trans hsigil) hbody

/-! ### Expressions and markup -/

theorem Content.worded {tokens : List Token} {operand : Option Operand}
    {directive : Option Directive} (h : Content tokens operand directive) :
    Worded tokens (Content · operand directive) := by
  cases h with
  | operand h => exact h.worded.mono fun _ h => .operand h
  | directive h => exact h.worded.mono fun _ h => .directive h
  | both hoperand h =>
    have hdirective := h.worded (fun _ => Separator.worded) fun _ _ => Directive.Derives.worded
    exact hoperand.worded.append hdirective fun _ _ hoperand h => .both hoperand h

/-- A closing brace. -/
theorem worded_closing {closing : Token} (h : closing.kind = .expressionClose) :
    Worded [closing] fun others => ∃ other : Token, others = [other] ∧
      other.kind = .expressionClose :=
  .token h nofun fun other hkind _ => ⟨other, rfl, hkind⟩

theorem Expression.Derives.worded {tokens : List Token} {e : Expression}
    (h : Expression.Derives tokens e) : Worded tokens (Expression.Derives · e) := by
  cases h with
  | intro hopening hgap hcontent hattributes hfinal hclosing =>
    have hrear := (worded_attributes hattributes).andThen
      (hfinal.worded.andThen (worded_closing hclosing))
    refine .cons hopening nofun (hgap.worded.andThen (hcontent.worded.andThen hrear)) ?_
    rintro _ _ hopening - ⟨_, _, rfl, hgap, _, _, rfl, hcontent, _, _, rfl, hattributes, _, _, rfl,
      hfinal, _, rfl, hclosing⟩
    exact .intro hopening hgap hcontent hattributes hfinal hclosing

theorem MarkupEnd.worded {begun : TokenKind} {tokens : List Token} {kind : MarkupKind}
    (h : MarkupEnd begun tokens kind) : Worded tokens (MarkupEnd begun · kind) := by
  cases h with
  | opening h => exact .token h nofun fun _ hkind _ => .opening hkind
  | standalone hslash h =>
    refine .cons hslash nofun (worded_closing h) ?_
    rintro _ _ hslash - ⟨_, rfl, h⟩
    exact .standalone hslash h
  | closing h => exact .token h nofun fun _ hkind _ => .closing hkind

theorem Markup.Derives.worded {tokens : List Token} {m : Markup}
    (h : Markup.Derives tokens m) : Worded tokens (Markup.Derives · m) := by
  cases h with
  | @intro _ name _ _ _ _ _ _ _ _ hopening hgap hoptions hattributes hfinal hending =>
    have hname : name.kind ≠ .patternClose := by
      intro hkind
      rw [hkind] at hending
      cases hending
    have hrear := (worded_namedOptions hoptions).andThen
      ((worded_attributes hattributes).andThen (hfinal.worded.andThen hending.worded))
    refine .cons hopening nofun (hgap.worded.andThen (.headed rfl hname hrear)) ?_
    rintro _ _ hopening - ⟨_, _, rfl, hgap, _, _, rfl, hkind, hvalue, _, _, rfl, hoptions, _, _, rfl,
      hattributes, _, _, rfl, hfinal, hending⟩
    rw [← hvalue]
    exact .intro hopening hgap hoptions hattributes hfinal (hkind ▸ hending)

/-! ### Patterns -/

theorem PatternPart.Derives.worded {tokens : List Token} {part : PatternPart}
    (h : PatternPart.Derives tokens part) : Worded tokens (PatternPart.Derives · part) := by
  cases h with
  | text h => exact .token h nofun fun _ hkind hvalue => hvalue ▸ .text hkind
  | expression h => exact h.worded.mono fun _ h => .expression h
  | markup h => exact h.worded.mono fun _ h => .markup h

/-- **Which pattern tokens derive depends on their words**, and none of them closes the pattern. -/
theorem Pattern.Derives.worded {tokens : List Token} {pattern : Pattern}
    (h : Pattern.Derives tokens pattern) : Worded tokens (Pattern.Derives · pattern) :=
  Repeated.worded h fun _ _ => PatternPart.Derives.worded

end MessageFormat
