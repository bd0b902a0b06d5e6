import Mathlib.Data.List.Chain
import Mathlib.Data.List.TakeWhile
import MessageFormat.Proofs.Parsing

/-!
# Well-shaped messages

The messages that have a spelling.  A message that is built by hand may have an empty name in it, or
two texts side by side; what is read from a source text is well shaped.

* `Message.WellShaped` : what can be spelled, one predicate for each kind of node;
* `Message.DerivesInner.wellShaped` : lexed tokens derive well-shaped nodes only;
* `wellShaped_of_parse` : a parsed message is well shaped.
-/

namespace MessageFormat

open Scanner

/-! ### Well-shaped nodes -/

/-- A name, and a namespace that is one too. -/
structure Identifier.WellShaped (identifier : Identifier) : Prop where
  /-- A namespace is a name. -/
  qualifier : ∀ qualifier ∈ identifier.qualifier, isName qualifier = true
  /-- The name is one. -/
  name : isName identifier.name = true

/-- A literal that reads as its kind. -/
inductive Literal.WellShaped : Literal → Prop where
  /-- Any text without NUL stands between bars. -/
  | quoted {text : String} (h : '\x00' ∉ text.toList) : WellShaped (.quoted text)
  /-- A bare name is a name. -/
  | name {text : String} (h : isName text = true) : WellShaped (.name text)
  /-- A number has the value of its spelling. -/
  | number {source : String} (h : isNumberLiteral source = true) :
      WellShaped (.number (.ofSource source))

/-- A well-shaped literal, or a variable with a name. -/
inductive Operand.WellShaped : Operand → Prop where
  /-- A literal. -/
  | literal {l : Literal} (h : l.WellShaped) : WellShaped (.literal l)
  /-- A variable. -/
  | variableName {name : String} (h : isName name = true) : WellShaped (.variableName name)

/-- A well-shaped identifier and value. -/
structure NamedOption.WellShaped (o : NamedOption) : Prop where
  /-- The name of the option. -/
  identifier : o.identifier.WellShaped
  /-- Its value. -/
  value : o.value.WellShaped

/-- A well-shaped identifier, and a well-shaped value if there is any. -/
structure Attribute.WellShaped (a : Attribute) : Prop where
  /-- The name of the attribute. -/
  identifier : a.identifier.WellShaped
  /-- Its value. -/
  value : ∀ value ∈ a.value, value.WellShaped

/-- A reserved body that some lexed tokens make up.  Where its blanks may stand depends on how they
are lexed, so that the pieces alone do not say it. -/
def BodyShaped (body : List BodyPiece) : Prop :=
  ∃ tokens, Lexed tokens ∧ ReservedBody tokens body

/-- A directive with a well-shaped identifier or a sigil of its kind. -/
inductive Directive.WellShaped : Directive → Prop where
  /-- A call of a function. -/
  | function {call : FunctionCall} (hidentifier : call.identifier.WellShaped)
      (hoptions : ∀ o ∈ call.options, o.WellShaped) : WellShaped (.function call)
  /-- A reserved directive. -/
  | reserved {directive : ReservedDirective} (hsigil : isReservedSigil directive.sigil = true)
      (hbody : BodyShaped directive.body) : WellShaped (.reserved directive)
  /-- A private-use directive. -/
  | privateUse {directive : ReservedDirective} (hsigil : isPrivateSigil directive.sigil = true)
      (hbody : BodyShaped directive.body) : WellShaped (.privateUse directive)

/-- What an expression is about is something, and well shaped. -/
structure ContentShaped (operand : Option Operand) (directive : Option Directive) : Prop where
  /-- There is an operand or a directive. -/
  content : operand = none → directive ≠ none
  /-- The operand. -/
  operand : ∀ o ∈ operand, o.WellShaped
  /-- The directive. -/
  directive : ∀ d ∈ directive, d.WellShaped

/-- An expression that is well-shaped in all its parts. -/
structure Expression.WellShaped (e : Expression) : Prop where
  /-- What it is about. -/
  content : ContentShaped e.operand e.directive
  /-- The attributes. -/
  attributes : ∀ a ∈ e.attributes, a.WellShaped

/-- Markup that is well-shaped in all its parts. -/
structure Markup.WellShaped (m : Markup) : Prop where
  /-- The name. -/
  identifier : m.identifier.WellShaped
  /-- The options. -/
  options : ∀ o ∈ m.options, o.WellShaped
  /-- The attributes. -/
  attributes : ∀ a ∈ m.attributes, a.WellShaped

/-- A part of a pattern that is not empty. -/
inductive PatternPart.WellShaped : PatternPart → Prop where
  /-- Some text without NUL. -/
  | text {text : String} (hne : text ≠ "") (h : '\x00' ∉ text.toList) : WellShaped (.text text)
  /-- A placeholder for a value. -/
  | expression {e : Expression} (h : e.WellShaped) : WellShaped (.expression e)
  /-- A placeholder for something that is no text. -/
  | markup {m : Markup} (h : m.WellShaped) : WellShaped (.markup m)

/-- Whether the part is text. -/
def PatternPart.isText : PatternPart → Bool
  | text _ => true
  | expression _ | markup _ => false

/-- Well-shaped parts, and no text that goes on with another. -/
structure Pattern.WellShaped (pattern : Pattern) : Prop where
  /-- The parts. -/
  parts : ∀ part ∈ pattern, part.WellShaped
  /-- Texts are set apart. -/
  separated : pattern.IsChain fun a b => a.isText = true → b.isText = false

/-- An asterisk or a well-shaped literal. -/
inductive VariantKey.WellShaped : VariantKey → Prop where
  /-- A literal. -/
  | literal {l : Literal} (h : l.WellShaped) : WellShaped (.literal l)
  /-- An asterisk. -/
  | catchAll : WellShaped .catchAll

/-- A variant with a key. -/
structure Variant.WellShaped (v : Variant) : Prop where
  /-- There is a key. -/
  keys_ne_nil : v.keys ≠ []
  /-- The keys. -/
  keys : ∀ key ∈ v.keys, key.WellShaped
  /-- The pattern. -/
  pattern : Pattern.WellShaped v.pattern

/-- A matcher with a selector and a variant. -/
structure Matcher.WellShaped (m : Matcher) : Prop where
  /-- There is a selector. -/
  selectors_ne_nil : m.selectors ≠ []
  /-- The selectors. -/
  selectors : ∀ e ∈ m.selectors, e.WellShaped
  /-- There is a variant. -/
  variants_ne_nil : m.variants ≠ []
  /-- The variants. -/
  variants : ∀ v ∈ m.variants, v.WellShaped

/-- A name that is not the keyword of another statement. -/
structure IsReservedKeyword (keyword : String) : Prop where
  /-- It is a name. -/
  name : isName keyword = true
  /-- Other statements have other keywords. -/
  not_mem : keyword ∉ ["input", "local", "match"]

/-- A statement that is well-shaped in all its parts. -/
inductive Declaration.WellShaped : Declaration → Prop where
  /-- An input declaration, of a variable. -/
  | input {e : Expression} {name : String} (h : e.WellShaped)
      (hoperand : e.operand = some (.variableName name)) : WellShaped (.input e)
  /-- A local declaration. -/
  | assign {name : String} {e : Expression} (hname : isName name = true) (h : e.WellShaped) :
      WellShaped (.assign name e)
  /-- A reserved statement, of some expressions. -/
  | reserved {statement : ReservedStatement} (hkeyword : IsReservedKeyword statement.keyword)
      (hbody : BodyShaped statement.body) (hne : statement.expressions ≠ [])
      (hexpressions : ∀ e ∈ statement.expressions, e.WellShaped) : WellShaped (.reserved statement)

/-- A well-shaped pattern or matcher. -/
inductive MessageBody.WellShaped : MessageBody → Prop where
  /-- A pattern. -/
  | pattern {p : Pattern} (h : Pattern.WellShaped p) : WellShaped (.pattern p)
  /-- A matcher. -/
  | matcher {m : Matcher} (h : m.WellShaped) : WellShaped (.matcher m)

/-- A message that has a spelling. -/
inductive Message.WellShaped : Message → Prop where
  /-- A simple message, which does not begin as a complex one. -/
  | simple {p : Pattern} (h : Pattern.WellShaped p)
      (hpoint : Pattern.beginsWithPoint p = false) : WellShaped (.simple p)
  /-- A complex message. -/
  | complex {declarations : List Declaration} {body : MessageBody}
      (hdeclarations : ∀ d ∈ declarations, d.WellShaped) (hbody : body.WellShaped) :
      WellShaped (.complex declarations body)

/-! ### Names and identifiers -/

theorem isName_toList {text : String} : IsName text.toList ↔ isName text = true := by
  rw [IsName, String.ofList_toList]

theorem isNumber_toList {text : String} :
    IsNumber text.toList ↔ isNumberLiteral text = true := by
  rw [← isNumberLiteral_iff, String.ofList_toList]

namespace Identifier

theorem ofText_of_not_mem {text : String} (h : ':' ∉ text.toList) :
    ofText text = ⟨none, text⟩ := by
  have hdrop : text.toList.dropWhile (· != ':') = [] := by
    rw [List.dropWhile_eq_nil_iff]
    intro c hc
    rw [bne_iff_ne]
    rintro rfl
    exact h hc
  rw [ofText, hdrop]

theorem ofText_append {qualifier name : List Char} (h : ':' ∉ qualifier) :
    ofText (String.ofList (qualifier ++ ':' :: name)) =
      ⟨some (String.ofList qualifier), String.ofList name⟩ := by
  have hall : ∀ c ∈ qualifier, (c != ':') = true := by
    intro c hc
    rw [bne_iff_ne]
    rintro rfl
    exact h hc
  have hstop : StopsAt (· != ':') (':' :: name) := by simp
  rw [ofText, String.toList_ofList, takeWhile_append_of_stopsAt hall hstop,
    dropWhile_append_of_stopsAt hall hstop]

theorem wellShaped_ofText {text : String} (h : IsIdentifier text.toList) :
    (ofText text).WellShaped := by
  generalize htext : text.toList = characters at h
  rw [← String.ofList_toList (s := text), htext]
  cases h with
  | name hname =>
    rw [ofText_of_not_mem (by rw [String.toList_ofList]; exact hname.not_mem_colon)]
    exact ⟨nofun, hname⟩
  | qualified hqualifier hname =>
    rw [ofText_append hqualifier.not_mem_colon]
    refine ⟨?_, hname⟩
    rintro _ ⟨⟩
    exact hqualifier

theorem toList_text (qualifier name : String) :
    (Identifier.mk (some qualifier) name).text.toList =
      qualifier.toList ++ ':' :: name.toList := by
  simp [text, String.toList_append]

theorem WellShaped.isIdentifier_text {identifier : Identifier} (h : identifier.WellShaped) :
    IsIdentifier identifier.text.toList := by
  obtain ⟨qualifier, name⟩ := identifier
  have hname : IsName name.toList := isName_toList.2 h.name
  cases qualifier with
  | none => exact .name hname
  | some qualifier =>
    rw [toList_text]
    exact .qualified (isName_toList.2 (h.qualifier qualifier rfl)) hname

/-- A well-shaped identifier is the one that its text spells. -/
theorem WellShaped.ofText_text {identifier : Identifier} (h : identifier.WellShaped) :
    ofText identifier.text = identifier := by
  obtain ⟨qualifier, name⟩ := identifier
  have hname : IsName name.toList := isName_toList.2 h.name
  cases qualifier with
  | none => exact ofText_of_not_mem hname.not_mem_colon
  | some qualifier =>
    have hqualifier : IsName qualifier.toList := isName_toList.2 (h.qualifier qualifier rfl)
    rw [← String.ofList_toList (s := text _), toList_text, ofText_append hqualifier.not_mem_colon,
      String.ofList_toList, String.ofList_toList]

end Identifier

/-! ### Lexed tokens -/

theorem Decodes.not_mem {plain : Char → Bool} {spelling text : List Char} {c : Char}
    (h : Decodes plain spelling text) (hplain : plain c = false) (hescape : isEscapable c = false) :
    c ∉ text := by
  induction h with
  | nil => exact List.not_mem_nil
  | plain hd _ ih =>
    rw [List.mem_cons, not_or]
    refine ⟨?_, ih⟩
    rintro rfl
    rw [hplain] at hd
    cases hd
  | escape hd _ ih =>
    rw [List.mem_cons, not_or]
    refine ⟨?_, ih⟩
    rintro rfl
    rw [hescape] at hd
    cases hd

/-- Whether a token of the kind has a name for its value. -/
def TokenKind.isNamed : TokenKind → Bool
  | variableName | nameLiteral | reservedKeyword => true
  | _ => false

/-- Whether a token of the kind has an identifier for its value. -/
def TokenKind.isIdentified : TokenKind → Bool
  | functionName | markupOpen | markupClose | attributeName | optionName => true
  | _ => false

section Lexed

variable {token : Token} {tokens : List Token}

theorem Lexed.isName_value (hlexed : Lexed tokens) (hmem : token ∈ tokens)
    (hkind : token.kind.isNamed = true) : isName token.value = true := by
  obtain ⟨taken, rest, hspells⟩ := hlexed.spells hmem
  rw [← isName_toList]
  rw [Token.Spells] at hspells
  cases h : token.kind <;> rw [h] at hkind hspells <;> try cases hkind
  · exact hspells.2.1
  · exact hspells.2.1
  · exact hspells.1.2.1

theorem Lexed.identifier_value (hlexed : Lexed tokens) (hmem : token ∈ tokens)
    (hkind : token.kind.isIdentified = true) : (Identifier.ofText token.value).WellShaped := by
  obtain ⟨taken, rest, hspells⟩ := hlexed.spells hmem
  refine Identifier.wellShaped_ofText ?_
  rw [Token.Spells] at hspells
  cases h : token.kind <;> rw [h] at hkind hspells <;> try cases hkind
  all_goals exact hspells.2.1

theorem Lexed.text_value (hlexed : Lexed tokens) (hmem : token ∈ tokens)
    (hkind : token.kind = .text) : token.value ≠ "" ∧ '\x00' ∉ token.value.toList := by
  obtain ⟨taken, rest, hspells⟩ := hlexed.spells hmem
  rw [Token.Spells, hkind] at hspells
  obtain ⟨hne, hdecodes, -⟩ := hspells
  refine ⟨?_, hdecodes.not_mem (by decide) (by decide)⟩
  intro hempty
  rw [hempty] at hdecodes
  cases hdecodes
  exact hne rfl

theorem Lexed.quoted_value (hlexed : Lexed tokens) (hmem : token ∈ tokens)
    (hkind : token.kind = .quotedLiteral) : '\x00' ∉ token.value.toList := by
  obtain ⟨taken, rest, hspells⟩ := hlexed.spells hmem
  rw [Token.Spells, hkind] at hspells
  obtain ⟨body, -, hdecodes⟩ := hspells
  exact hdecodes.not_mem (by decide) (by decide)

theorem Lexed.number_value (hlexed : Lexed tokens) (hmem : token ∈ tokens)
    (hkind : token.kind = .numberLiteral) : isNumberLiteral token.value = true := by
  obtain ⟨taken, rest, hspells⟩ := hlexed.spells hmem
  rw [Token.Spells, hkind] at hspells
  exact isNumber_toList.1 hspells.2.1

theorem Lexed.sigil_value (hlexed : Lexed tokens) (hmem : token ∈ tokens) {sigil : Char}
    (hvalue : token.value = String.singleton sigil) :
    (token.kind = .reservedSigil → isReservedSigil sigil = true) ∧
      (token.kind = .privateSigil → isPrivateSigil sigil = true) := by
  obtain ⟨taken, rest, hspells⟩ := hlexed.spells hmem
  have hsigil : token.value.toList = [sigil] := by rw [hvalue, String.toList_singleton]
  rw [Token.Spells, hsigil] at hspells
  constructor
  all_goals
    intro hkind
    rw [hkind] at hspells
    obtain ⟨-, c, hc, heq⟩ := hspells
    rwa [List.singleton_inj.1 heq]

theorem toList_mem_keywords {word : String} :
    word.toList ∈ ["input".toList, "local".toList, "match".toList] ↔
      word ∈ ["input", "local", "match"] := by
  simp only [List.mem_cons, List.not_mem_nil, or_false, String.toList_inj]

theorem Lexed.keyword_value (hlexed : Lexed tokens) (hmem : token ∈ tokens)
    (hkind : token.kind = .reservedKeyword) : IsReservedKeyword token.value := by
  refine ⟨hlexed.isName_value hmem (by rw [hkind]; rfl), ?_⟩
  obtain ⟨taken, rest, hspells⟩ := hlexed.spells hmem
  rw [Token.Spells, hkind] at hspells
  exact fun h => hspells.2 (toList_mem_keywords.2 h)

end Lexed

/-! ### What lexed tokens derive -/

section Repeated

variable {α : Type} {item : List Token → α → Prop} {P : α → Prop}

/-- What holds of every item that lexed tokens derive holds of all items of a repetition. -/
theorem Repeated.forall_mem {tokens : List Token} {as : List α} (h : Repeated item tokens as)
    (hlexed : Lexed tokens) (hitem : ∀ front a, Lexed front → item front a → P a) :
    ∀ a ∈ as, P a := by
  induction h with
  | nil => nofun
  | cons ha _ ih => exact List.forall_mem_cons.2 ⟨hitem _ _ hlexed.left ha, ih hlexed.right⟩

theorem Behind.of_item {gap : List Token → Prop} {tokens : List Token} {a : α}
    (h : Behind gap item tokens a) (hlexed : Lexed tokens)
    (hitem : ∀ front a, Lexed front → item front a → P a) : P a := by
  cases h with
  | intro _ h => exact hitem _ _ hlexed.right h

theorem Before.of_item {gap : List Token → Prop} {tokens : List Token} {a : α}
    (h : Before item gap tokens a) (hlexed : Lexed tokens)
    (hitem : ∀ front a, Lexed front → item front a → P a) : P a := by
  cases h with
  | intro h _ => exact hitem _ _ hlexed.left h

end Repeated

theorem Literal.Derives.wellShaped {tokens : List Token} {l : Literal}
    (h : Literal.Derives tokens l) (hlexed : Lexed tokens) : l.WellShaped := by
  cases h with
  | quoted h => exact .quoted (hlexed.quoted_value List.mem_cons_self h)
  | name h => exact .name (hlexed.isName_value List.mem_cons_self (by rw [h]; rfl))
  | number h => exact .number (hlexed.number_value List.mem_cons_self h)

theorem Operand.Derives.wellShaped {tokens : List Token} {operand : Operand}
    (h : Operand.Derives tokens operand) (hlexed : Lexed tokens) : operand.WellShaped := by
  cases h with
  | literal h => exact .literal (h.wellShaped hlexed)
  | variableName h =>
    exact .variableName (hlexed.isName_value List.mem_cons_self (by rw [h]; rfl))

theorem Assigned.wellShaped {tokens : List Token} {value : Operand} (h : Assigned tokens value)
    (hlexed : Lexed tokens) : value.WellShaped := by
  cases h with
  | intro _ _ _ h => exact h.wellShaped hlexed.right.tail.right

theorem NamedOption.Derives.wellShaped {tokens : List Token} {o : NamedOption}
    (h : NamedOption.Derives tokens o) (hlexed : Lexed tokens) : o.WellShaped := by
  cases h with
  | intro hname h =>
    exact ⟨hlexed.identifier_value List.mem_cons_self (by rw [hname]; rfl),
      h.wellShaped hlexed.tail⟩

theorem Attribute.Derives.wellShaped {tokens : List Token} {a : Attribute}
    (h : Attribute.Derives tokens a) (hlexed : Lexed tokens) : a.WellShaped := by
  cases h with
  | bare hname =>
    exact ⟨hlexed.identifier_value List.mem_cons_self (by rw [hname]; rfl), nofun⟩
  | assigned hname h =>
    refine ⟨hlexed.identifier_value List.mem_cons_self (by rw [hname]; rfl), ?_⟩
    rintro _ ⟨⟩
    exact h.wellShaped hlexed.tail

theorem NamedOptions.wellShaped {tokens : List Token} {options : List NamedOption}
    (h : NamedOptions tokens options) (hlexed : Lexed tokens) : ∀ o ∈ options, o.WellShaped :=
  Repeated.forall_mem h hlexed fun _ _ hlexed h => h.of_item hlexed fun _ _ hlexed h =>
    h.wellShaped hlexed

theorem Attributes.wellShaped {tokens : List Token} {attributes : List Attribute}
    (h : Attributes tokens attributes) (hlexed : Lexed tokens) :
    ∀ a ∈ attributes, a.WellShaped :=
  Repeated.forall_mem h hlexed fun _ _ hlexed h => h.of_item hlexed fun _ _ hlexed h =>
    h.wellShaped hlexed

theorem Directive.Derives.wellShaped {tokens : List Token} {directive : Directive}
    (h : Directive.Derives tokens directive) (hlexed : Lexed tokens) : directive.WellShaped := by
  cases h with
  | function hname hoptions =>
    exact .function (hlexed.identifier_value List.mem_cons_self (by rw [hname]; rfl))
      (hoptions.wellShaped hlexed.tail)
  | reserved htoken hsigil hbody =>
    exact .reserved ((hlexed.sigil_value List.mem_cons_self hsigil).1 htoken)
      ⟨_, hlexed.tail, hbody⟩
  | privateUse htoken hsigil hbody =>
    exact .privateUse ((hlexed.sigil_value List.mem_cons_self hsigil).2 htoken)
      ⟨_, hlexed.tail, hbody⟩

theorem Content.shaped {tokens : List Token} {operand : Option Operand}
    {directive : Option Directive} (h : Content tokens operand directive)
    (hlexed : Lexed tokens) : ContentShaped operand directive := by
  cases h with
  | operand h =>
    refine ⟨nofun, ?_, nofun⟩
    rintro _ ⟨⟩
    exact h.wellShaped hlexed
  | directive h =>
    refine ⟨nofun, nofun, ?_⟩
    rintro _ ⟨⟩
    exact h.wellShaped hlexed
  | both hoperand h =>
    refine ⟨nofun, ?_, ?_⟩
    · rintro _ ⟨⟩
      exact hoperand.wellShaped hlexed.left
    · rintro _ ⟨⟩
      exact h.of_item hlexed.right fun _ _ hlexed h => h.wellShaped hlexed

theorem Expression.Derives.wellShaped {tokens : List Token} {e : Expression}
    (h : Expression.Derives tokens e) (hlexed : Lexed tokens) : e.WellShaped := by
  cases h with
  | intro _ _ hcontent hattributes _ _ =>
    have hinside := hlexed.tail.right
    exact ⟨hcontent.shaped hinside.left, hattributes.wellShaped hinside.right.left⟩

theorem MarkupEnd.isIdentified {name : TokenKind} {tokens : List Token} {kind : MarkupKind}
    (h : MarkupEnd name tokens kind) : name.isIdentified = true := by
  cases h <;> rfl

theorem Markup.Derives.wellShaped {tokens : List Token} {m : Markup}
    (h : Markup.Derives tokens m) (hlexed : Lexed tokens) : m.WellShaped := by
  cases h with
  | intro _ _ hoptions hattributes _ hending =>
    have hname := hlexed.tail.right
    exact ⟨hname.identifier_value List.mem_cons_self hending.isIdentified,
      hoptions.wellShaped hname.tail.left, hattributes.wellShaped hname.tail.right.left⟩

theorem PatternPart.Derives.wellShaped {tokens : List Token} {part : PatternPart}
    (h : PatternPart.Derives tokens part) (hlexed : Lexed tokens) : part.WellShaped := by
  cases h with
  | text h =>
    obtain ⟨hne, hnul⟩ := hlexed.text_value List.mem_cons_self h
    exact .text hne hnul
  | expression h => exact .expression (h.wellShaped hlexed)
  | markup h => exact .markup (h.wellShaped hlexed)

theorem PatternPart.Derives.exists_text {tokens : List Token} {part : PatternPart}
    (h : PatternPart.Derives tokens part) (htext : part.isText = true) :
    ∃ token, tokens = [token] ∧ token.kind = .text ∧ part = .text token.value := by
  cases h with
  | text h => exact ⟨_, rfl, h, rfl⟩
  | expression _ => cases htext
  | markup _ => cases htext

/-- No text stands beside another, since the first would have gone on with the second. -/
theorem Pattern.Derives.separated {tokens : List Token} {pattern : Pattern}
    (h : Pattern.Derives tokens pattern) (hlexed : Lexed tokens) :
    pattern.IsChain fun a b => a.isText = true → b.isText = false := by
  induction h with
  | nil => exact .nil
  | cons ha later ih =>
    refine List.isChain_cons.2 ⟨?_, ih hlexed.right⟩
    intro next hmem htext
    cases later with
    | nil => cases hmem
    | @cons _ _ b _ hnext _ =>
      obtain rfl : b = next := Option.some.inj hmem
      cases hisText : b.isText with
      | false => rfl
      | true =>
        obtain ⟨first, rfl, hfirst, -⟩ := ha.exists_text htext
        obtain ⟨second, rfl, hsecond, -⟩ := hnext.exists_text hisText
        exact absurd hsecond (hlexed.not_text_text hfirst)

theorem Pattern.Derives.wellShaped {tokens : List Token} {pattern : Pattern}
    (h : Pattern.Derives tokens pattern) (hlexed : Lexed tokens) : Pattern.WellShaped pattern :=
  ⟨Repeated.forall_mem h hlexed fun _ _ hlexed h => h.wellShaped hlexed, h.separated hlexed⟩

theorem Pattern.DerivesQuoted.wellShaped {tokens : List Token} {pattern : Pattern}
    (h : Pattern.DerivesQuoted tokens pattern) (hlexed : Lexed tokens) :
    Pattern.WellShaped pattern := by
  cases h with
  | intro _ h _ => exact h.wellShaped hlexed.tail.left

theorem VariantKey.Derives.wellShaped {tokens : List Token} {key : VariantKey}
    (h : VariantKey.Derives tokens key) (hlexed : Lexed tokens) : key.WellShaped := by
  cases h with
  | literal h => exact .literal (h.wellShaped hlexed)
  | catchAll _ => exact .catchAll

theorem Variant.Derives.wellShaped {tokens : List Token} {v : Variant}
    (h : Variant.Derives tokens v) (hlexed : Lexed tokens) : v.WellShaped := by
  cases h with
  | intro hkey hkeys _ hpattern =>
    refine ⟨nofun, List.forall_mem_cons.2 ⟨hkey.wellShaped hlexed.left, ?_⟩,
      hpattern.wellShaped hlexed.right.right.right⟩
    exact hkeys.forall_mem hlexed.right.left fun _ _ hlexed h => h.of_item hlexed
      fun _ _ hlexed h => h.wellShaped hlexed

theorem expressions_wellShaped {tokens : List Token} {expressions : List Expression}
    (h : Repeated (Behind Gap Expression.Derives) tokens expressions) (hlexed : Lexed tokens) :
    ∀ e ∈ expressions, e.WellShaped :=
  h.forall_mem hlexed fun _ _ hlexed h => h.of_item hlexed fun _ _ hlexed h => h.wellShaped hlexed

theorem Matcher.Derives.wellShaped {tokens : List Token} {m : Matcher}
    (h : Matcher.Derives tokens m) (hlexed : Lexed tokens) : m.WellShaped := by
  cases h with
  | intro _ hselectors hselected hvariants hvaried =>
    refine ⟨hselected, expressions_wellShaped hselectors hlexed.tail.left, hvaried, ?_⟩
    exact hvariants.forall_mem hlexed.tail.right fun _ _ hlexed h => h.of_item hlexed
      fun _ _ hlexed h => h.wellShaped hlexed

theorem Declaration.Derives.wellShaped {tokens : List Token} {d : Declaration}
    (h : Declaration.Derives tokens d) (hlexed : Lexed tokens) : d.WellShaped := by
  cases h with
  | input _ _ h hoperand => exact .input (h.wellShaped hlexed.tail.right) hoperand
  | assign _ _ hname _ _ _ h =>
    have hbehind := hlexed.tail.right
    exact .assign (hbehind.isName_value List.mem_cons_self (by rw [hname]; rfl))
      (h.wellShaped hbehind.tail.right.tail.right)
  | reserved hkeyword hbody hexpressions hne =>
    exact .reserved (hlexed.keyword_value List.mem_cons_self hkeyword)
      ⟨_, hlexed.tail.left, hbody⟩ hne (expressions_wellShaped hexpressions hlexed.tail.right)

theorem MessageBody.Derives.wellShaped {tokens : List Token} {body : MessageBody}
    (h : MessageBody.Derives tokens body) (hlexed : Lexed tokens) : body.WellShaped := by
  cases h with
  | pattern h => exact .pattern (h.wellShaped hlexed)
  | matcher h => exact .matcher (h.wellShaped hlexed)

/-! ### The beginning of a simple message -/

/-- Whether the text begins with a point, blanks aside. -/
def beginsWithPoint (text : List Char) : Bool := (text.dropWhile isBlank).head? == some '.'

/-- Lexed tokens derive well-shaped nodes only. -/
theorem Message.DerivesInner.wellShaped {tokens : List Token} {m : Message}
    (h : Message.DerivesInner tokens m) (hlexed : Lexed tokens)
    (hpoint : ∀ token ∈ tokens.head?, token.kind = .text →
      beginsWithPoint token.value.toList = false) : m.WellShaped := by
  cases h with
  | @simple _ p h =>
    refine .simple (h.wellShaped hlexed) ?_
    -- only text may begin with a point, and it is the first token then
    cases h with
    | nil => rfl
    | @cons front later a as ha =>
      cases ha with
      | text hkind => exact hpoint _ rfl hkind
      | expression _ => rfl
      | markup _ => rfl
  | complex _ hdeclarations hbody _ =>
    refine .complex ?_ (hbody.wellShaped hlexed.right.right.left)
    exact hdeclarations.forall_mem hlexed.right.left fun _ _ hlexed h => h.of_item hlexed
      fun _ _ hlexed h => h.wellShaped hlexed

/-- Neither a blank nor a point is written behind a backslash. -/
theorem Decodes.beginsComplex {taken text rest : List Char} (h : Decodes isTextChar taken text)
    (hpoint : beginsWithPoint text = true) : Context.beginsComplex (taken ++ rest) = true := by
  induction h with
  | nil => cases hpoint
  | @plain c spelling text hc h ih =>
    by_cases hblank : isBlank c = true
    · rw [beginsWithPoint, List.dropWhile_cons_of_pos hblank] at hpoint
      rw [Context.beginsComplex, List.cons_append, List.dropWhile_cons_of_pos hblank]
      exact ih hpoint
    · rw [beginsWithPoint, List.dropWhile_cons_of_neg hblank] at hpoint
      obtain rfl : c = '.' := by simpa using hpoint
      rfl
  | @escape c spelling text hc h ih =>
    have hblank : isBlank c = false := not_isBlank hc (by decide)
    rw [beginsWithPoint, List.dropWhile_cons_of_neg (by simp [hblank])] at hpoint
    obtain rfl : c = '.' := by simpa using hpoint
    cases hc

/-- A first token of text is scanned in the pattern of a simple message. -/
theorem not_beginsComplex_of_text {source : String} {token : Token} {tokens : List Token}
    (htokens : tokenizeAll source = token :: tokens) (hkind : token.kind = .text) :
    Context.beginsComplex source.toList = false := by
  have htoken : (Cursor.ofSource source).next.1 = token := by
    have hhead := (Cursor.ofSource source).head?_tokens
    rw [← tokenizeAll, htokens, List.head?_cons] at hhead
    exact (Option.some.inj hhead).symm
  cases hsource : source.toList with
  | nil => rfl
  | cons c rest =>
    rw [Cursor.ofSource, hsource] at htoken
    cases hbegins : Context.beginsComplex (c :: rest) with
    | false => rfl
    | true =>
      -- no lexeme of the header is text
      cases hscan : Context.start.scan c rest with
      | mk taken behind result =>
        cases result with
        | error fault =>
          rw [Cursor.next_of_fault hscan] at htoken
          rw [← htoken] at hkind
          cases hkind
        | ok lexeme =>
          rw [Cursor.next_of_scan hscan] at htoken
          rw [← htoken] at hkind
          rw [Context.scan_start, if_pos hbegins] at hscan
          have hafter := (Context.spelled_scan (by nofun) c rest taken behind lexeme hscan).2
          rw [show lexeme.kind = .text from hkind] at hafter
          cases hafter

/-- **What is parsed is well shaped.** -/
theorem wellShaped_of_parse {source : String} {m : Message} (h : parse source = .ok m) :
    m.WellShaped := by
  obtain ⟨init, last, htokenize, -, hderives⟩ := parse_eq_ok_iff_derivesInner.1 h
  obtain ⟨tokens, end', heq, -, -, hspells⟩ := spellsOut_of_tokenize htokenize
  obtain ⟨rfl, -⟩ := List.append_inj' heq rfl
  refine hderives.wellShaped ⟨_, _, hspells⟩ ?_
  intro token htoken hkind
  obtain ⟨later, rfl⟩ := List.head?_eq_some_iff.1 htoken
  have hbegins := not_beginsComplex_of_text (tokenize_eq_ok_iff.1 htokenize).1.symm hkind
  -- a source that begins with a point, blanks aside, is that of a complex message
  cases hpoint : beginsWithPoint token.value.toList with
  | false => rfl
  | true =>
    generalize source.toList = text at hspells hbegins
    cases hspells with
    | cons hfirst _ =>
      rw [Token.Spells, hkind] at hfirst
      rw [Decodes.beginsComplex hfirst.2.1 hpoint] at hbegins
      cases hbegins

end MessageFormat
