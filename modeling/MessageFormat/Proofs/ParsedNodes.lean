import MessageFormat.Proofs.Decimals
import MessageFormat.Proofs.Printing
import MessageFormat.Proofs.Violations

/-!
# The nodes of a parsed message

That a message is well shaped is said of it from the top down.  Here it is said of the nodes, from
wherever in the message they stand: its names, numbers, expressions, patterns and reserved bodies.
A parsed message cannot break the rules that are about nodes of no shape, so that the check of the
data model never reports them.

* `Message.WellShaped.identifiers` and others : the nodes of a well-shaped message are well shaped;
* `BodyShaped.trimmed` : the texts of a reserved body, and where its blanks are left out;
* `regular_of_parse` : what a parsed message is made of, and what the check does not find in it.
-/

namespace MessageFormat

/-! ### More nodes of a message -/

/-- The text of the literal, if it is a bare name. -/
def Literal.name? : Literal → Option String
  | name text => some text
  | _ => none

/-- The body of the directive, if it is a reserved one or one of private use. -/
def Directive.body? : Directive → Option (List BodyPiece)
  | function _ => none
  | privateUse directive | reserved directive => some directive.body

/-- The statement that the declaration is, if its keyword has no meaning. -/
def Declaration.statement? : Declaration → Option ReservedStatement
  | reserved statement => some statement
  | _ => none

/-- Whether the piece is text. -/
def BodyPiece.isText : BodyPiece → Bool
  | text _ => true
  | quoted _ => false

namespace Message

/-- The literals of the message: operands, values of options and attributes, and keys. -/
def literals (m : Message) : List Literal :=
  m.operands.filterMap Operand.literal? ++ m.keys.filterMap VariantKey.literal?

/-- The reserved statements of the message. -/
def statements (m : Message) : List ReservedStatement :=
  m.declarations.filterMap Declaration.statement?

/-- The reserved bodies of the message: those of its directives and of its statements. -/
def bodies (m : Message) : List (List BodyPiece) :=
  m.expressions.filterMap (·.directive.bind Directive.body?) ++ m.statements.map (·.body)

end Message

/-! ### Nodes of a well-shaped message -/

theorem Expression.directive_of_call? {e : Expression} {call : FunctionCall}
    (h : e.call? = some call) : e.directive = some (.function call) := by
  rw [call?] at h
  split at h
  · rename_i heq
    cases h
    exact heq
  · cases h

theorem NamedOption.WellShaped.of_mem_options {e : Expression} (h : e.WellShaped)
    {o : NamedOption} (ho : o ∈ e.options) : o.WellShaped := by
  rw [Expression.options] at ho
  cases hcall : e.call? with
  | none =>
    rw [hcall] at ho
    cases ho
  | some call =>
    rw [hcall, Option.elim_some] at ho
    cases h.content.directive _ (Expression.directive_of_call? hcall) with
    | function _ hoptions => exact hoptions o ho

theorem Expression.WellShaped.identifiers {e : Expression} (h : e.WellShaped) :
    ∀ i ∈ e.identifiers, i.WellShaped := by
  refine forall_identifiers.2 ⟨fun call hcall => ?_, fun o ho => ?_, fun a ha => ?_⟩
  · cases h.content.directive _ (directive_of_call? hcall) with
    | function hidentifier _ => exact hidentifier
  · exact (NamedOption.WellShaped.of_mem_options h ho).identifier
  · exact (h.attributes a ha).identifier

theorem Expression.WellShaped.operands {e : Expression} (h : e.WellShaped) :
    ∀ o ∈ e.operands, o.WellShaped :=
  forall_operands.2 ⟨h.content.operand,
    fun _ ho => (NamedOption.WellShaped.of_mem_options h ho).value,
    fun a ha => (h.attributes a ha).value⟩

theorem Markup.WellShaped.identifiers {k : Markup} (h : k.WellShaped) :
    ∀ i ∈ k.identifiers, i.WellShaped :=
  forall_identifiers.2 ⟨h.identifier, fun o ho => (h.options o ho).identifier,
    fun a ha => (h.attributes a ha).identifier⟩

theorem Markup.WellShaped.operands {k : Markup} (h : k.WellShaped) :
    ∀ o ∈ k.operands, o.WellShaped :=
  forall_operands.2 ⟨fun o ho => (h.options o ho).value, fun a ha => (h.attributes a ha).value⟩

theorem Declaration.WellShaped.expressions {d : Declaration} (h : d.WellShaped) :
    ∀ e ∈ d.expressions, e.WellShaped := by
  cases h with
  | input h _ | assign _ h => exact List.forall_mem_singleton.2 h
  | reserved _ _ _ h => exact h

namespace Message.WellShaped

variable {m : Message}

theorem declarations (h : m.WellShaped) : ∀ d ∈ m.declarations, d.WellShaped := by
  cases h with
  | simple => exact List.forall_mem_nil _
  | complex h _ => exact h

theorem matcher (h : m.WellShaped) : ∀ matcher ∈ m.matcher?, matcher.WellShaped := by
  cases h with
  | simple => nofun
  | complex _ hbody =>
    cases hbody with
    | pattern => nofun
    | matcher h =>
      rintro _ ⟨⟩
      exact h

theorem patterns (h : m.WellShaped) : ∀ pattern ∈ m.patterns, Pattern.WellShaped pattern := by
  cases h with
  | simple h => exact List.forall_mem_singleton.2 h
  | complex _ hbody =>
    cases hbody with
    | pattern h => exact List.forall_mem_singleton.2 h
    | matcher h => exact List.forall_mem_map.2 fun v hv => (h.variants v hv).pattern

theorem expressions (h : m.WellShaped) : ∀ e ∈ m.expressions, e.WellShaped := by
  refine forall_expressions.2 ⟨fun d hd => (h.declarations d hd).expressions,
    fun matcher hm => (h.matcher matcher hm).selectors, fun pattern hp => ?_⟩
  refine List.forall_mem_filterMap.2 fun part hpart e he => ?_
  cases (h.patterns pattern hp).parts part hpart with
  | expression h =>
    cases he
    exact h
  | text | markup => cases he

theorem markups (h : m.WellShaped) : ∀ k ∈ m.markups, k.WellShaped := by
  refine List.forall_mem_flatMap.2 fun pattern hp => ?_
  refine List.forall_mem_filterMap.2 fun part hpart k hk => ?_
  cases (h.patterns pattern hp).parts part hpart with
  | markup h =>
    cases hk
    exact h
  | text | expression => cases hk

theorem identifiers (h : m.WellShaped) : ∀ i ∈ m.identifiers, i.WellShaped :=
  List.forall_mem_append.2 ⟨List.forall_mem_flatMap.2 fun e he => (h.expressions e he).identifiers,
    List.forall_mem_flatMap.2 fun k hk => (h.markups k hk).identifiers⟩

theorem operands (h : m.WellShaped) : ∀ o ∈ m.operands, o.WellShaped :=
  List.forall_mem_append.2 ⟨List.forall_mem_flatMap.2 fun e he => (h.expressions e he).operands,
    List.forall_mem_flatMap.2 fun k hk => (h.markups k hk).operands⟩

theorem variableNames (h : m.WellShaped) : ∀ name ∈ m.variableNames, isName name = true := by
  refine forall_variableNames.2 ⟨fun o ho name hname => ?_, fun d hd name hname => ?_⟩
  · cases h.operands o ho with
    | literal => cases hname
    | variableName h =>
      cases hname
      exact h
  · cases h.declarations d hd with
    | assign h _ =>
      cases hname
      exact h
    | input | reserved => cases hname

theorem literals (h : m.WellShaped) : ∀ l ∈ m.literals, l.WellShaped := by
  refine List.forall_mem_append.2 ⟨?_, ?_⟩
  · refine List.forall_mem_filterMap.2 fun o ho l hl => ?_
    cases h.operands o ho with
    | literal h =>
      cases hl
      exact h
    | variableName => cases hl
  · refine List.forall_mem_filterMap.2 fun key hkey l hl => ?_
    have hkeys : ∀ key ∈ m.keys, key.WellShaped := forall_keys.2 fun matcher hm v hv =>
      ((h.matcher matcher hm).variants v hv).keys
    cases hkeys key hkey with
    | literal h =>
      cases hl
      exact h
    | catchAll => cases hl

theorem bodies (h : m.WellShaped) : ∀ body ∈ m.bodies, BodyShaped body := by
  refine List.forall_mem_append.2 ⟨?_, ?_⟩
  · refine List.forall_mem_filterMap.2 fun e he body hbody => ?_
    obtain ⟨directive, hdirective, hbody⟩ := Option.bind_eq_some_iff.1 hbody
    cases (h.expressions e he).content.directive directive hdirective with
    | function => cases hbody
    | reserved _ h | privateUse _ h =>
      cases hbody
      exact h
  · refine List.forall_mem_map.2 (List.forall_mem_filterMap.2 fun d hd statement hstatement => ?_)
    cases h.declarations d hd with
    | input | assign => cases hstatement
    | reserved _ h _ _ =>
      cases hstatement
      exact h

end Message.WellShaped

/-! ### Reserved bodies -/

/-- The texts of a body are set apart, and blanks are left out at its ends.  A bidi mark behind text
goes on with the text, so that only a space is ruled out there. -/
structure TrimmedBody (body : List BodyPiece) : Prop where
  /-- No text is empty. -/
  texts : ∀ text, .text text ∈ body → text ≠ ""
  /-- No text goes on with another. -/
  separated : body.IsChain fun a b => a.isText = true → b.isText = false
  /-- Text at the start does not begin with a blank. -/
  first : ∀ text, body.head? = some (.text text) → ∀ c ∈ text.toList.head?, isBlank c = false
  /-- Text at the end does not end in a space. -/
  last : ∀ text, body.getLast? = some (.text text) → ∀ c ∈ text.toList.getLast?, isSpace c = false

theorem not_isReservedChar_of_isSpace {c : Char} (h : isSpace c = true) :
    isReservedChar c = false ∧ isEscapable c = false := by
  simp only [isSpace, Bool.or_eq_true, beq_iff_eq] at h
  rcases h with (((rfl | rfl) | rfl) | rfl) | rfl <;> decide

/-- The text of a reserved body has no space in it, and does not begin with a bidi mark. -/
theorem Lexed.reservedText_value {token : Token} {tokens : List Token} (h : Lexed tokens)
    (hmem : token ∈ tokens) (hkind : token.kind = .reservedText) :
    token.value.toList ≠ [] ∧ (∀ c ∈ token.value.toList.head?, isBlank c = false) ∧
      ∀ c ∈ token.value.toList, isSpace c = false := by
  obtain ⟨taken, rest, hspells⟩ := h.spells hmem
  rw [Token.Spells, hkind] at hspells
  obtain ⟨⟨hne, hdecodes, -⟩, hstop⟩ := hspells
  refine ⟨?_, ?_, fun c hc => Bool.eq_false_iff.2 fun hspace => ?_⟩
  · generalize token.value.toList = value at hdecodes
    rintro rfl
    cases hdecodes
    exact hne rfl
  · generalize token.value.toList = value at hdecodes
    cases hdecodes with
    | nil => exact absurd rfl hne
    | plain => exact hstop
    | @escape c _ _ hc _ =>
      rintro _ ⟨⟩
      simp only [isEscapable, Bool.or_eq_true, beq_iff_eq] at hc
      rcases hc with ((rfl | rfl) | rfl) | rfl <;> decide
  · obtain ⟨hplain, hescape⟩ := not_isReservedChar_of_isSpace hspace
    exact hdecodes.not_mem hplain hescape hc

theorem Lexed.bodyText_value {token : Token} {tokens : List Token} (h : Lexed tokens)
    (hmem : token ∈ tokens) (hbody : token.isBodyText = true) : token.value.toList ≠ [] := by
  rw [Token.isBodyText, Bool.or_eq_true, beq_iff_eq] at hbody
  rcases hbody with hblank | hkind
  · exact fun hnil => h.value_ne_empty hmem hblank (String.toList_eq_nil_iff.1 hnil)
  · exact (h.reservedText_value hmem hkind).1

namespace BodyPieces

variable {tokens : List Token} {pieces : List BodyPiece}

theorem toList_join_values (run : List Token) :
    (String.join (run.map Token.value)).toList = run.flatMap (·.value.toList) := by
  rw [String.toList_join, List.flatMap_map]

theorem ne_nil (h : BodyPieces tokens pieces) (hne : pieces ≠ []) : tokens ≠ [] := by
  cases h with
  | nil => exact absurd rfl hne
  | quoted => exact List.cons_ne_nil _ _
  | text hrun => exact List.append_ne_nil_of_left_ne_nil hrun _

theorem texts (h : BodyPieces tokens pieces) (hlexed : Lexed tokens) :
    ∀ text, .text text ∈ pieces → text ≠ "" := by
  induction h with
  | nil => nofun
  | quoted _ _ ih =>
    intro text hmem
    exact ih hlexed.tail text ((List.mem_cons.1 hmem).resolve_left nofun)
  | @text run tokens pieces hne hrun _ _ ih =>
    intro text hmem
    rcases List.mem_cons.1 hmem with heq | hmem
    · cases heq
      obtain ⟨token, rest, rfl⟩ := List.exists_cons_of_ne_nil hne
      have hvalue := hlexed.bodyText_value List.mem_cons_self (hrun token List.mem_cons_self)
      rw [Ne, ← String.toList_eq_nil_iff, toList_join_values, List.flatMap_cons]
      exact List.append_ne_nil_of_left_ne_nil hvalue _
    · exact ih hlexed.right text hmem

theorem separated (h : BodyPieces tokens pieces) :
    pieces.IsChain fun a b => a.isText = true → b.isText = false := by
  induction h with
  | nil => exact .nil
  | quoted _ _ ih => exact List.isChain_cons.2 ⟨fun _ _ => nofun, ih⟩
  | text _ _ hstop later ih =>
    refine List.isChain_cons.2 ⟨fun next hnext _ => ?_, ih⟩
    cases later with
    | nil => cases hnext
    | quoted =>
      cases hnext
      rfl
    -- text goes as far as there is any, so that no text is behind it
    | text hne hrun =>
      obtain ⟨token, rest, rfl⟩ := List.exists_cons_of_ne_nil hne
      have hbody := hrun token List.mem_cons_self
      rw [hstop token rfl] at hbody
      cases hbody

theorem first (h : BodyPieces tokens pieces) (hlexed : Lexed tokens)
    (hhead : ∀ token ∈ tokens.head?, token.isBlank = false) :
    ∀ text, pieces.head? = some (.text text) → ∀ c ∈ text.toList.head?, isBlank c = false := by
  intro text htext
  cases h with
  | nil | quoted => cases htext
  | @text run tokens pieces hne hrun _ _ =>
    cases htext
    obtain ⟨token, rest, rfl⟩ := List.exists_cons_of_ne_nil hne
    have hkind : token.kind = .reservedText := by
      have hbody := hrun token List.mem_cons_self
      rwa [Token.isBodyText, hhead token rfl, Bool.false_or, beq_iff_eq] at hbody
    obtain ⟨hvalue, hfirst, -⟩ := hlexed.reservedText_value List.mem_cons_self hkind
    rw [toList_join_values, List.flatMap_cons, List.head?_append_of_ne_nil _ hvalue]
    exact hfirst

theorem last (h : BodyPieces tokens pieces) (hlexed : Lexed tokens)
    (hlast : ∀ token ∈ tokens.getLast?, token.isBlank = false) :
    ∀ text, pieces.getLast? = some (.text text) →
      ∀ c ∈ text.toList.getLast?, isSpace c = false := by
  induction h with
  | nil => nofun
  | @quoted token tokens pieces _ later ih =>
    intro text htext
    by_cases hpieces : pieces = []
    · subst hpieces
      cases htext
    · rw [List.getLast?_cons_of_ne_nil hpieces] at htext
      rw [List.getLast?_cons_of_ne_nil (later.ne_nil hpieces)] at hlast
      exact ih hlexed.tail hlast text htext
  | @text run tokens pieces hne hrun _ later ih =>
    intro text htext
    by_cases hpieces : pieces = []
    · subst hpieces
      cases htext
      cases later
      obtain ⟨init, token, rfl⟩ := (List.eq_nil_or_concat' run).resolve_left hne
      have hbody := hrun token (List.mem_append_right _ List.mem_cons_self)
      have hkind : token.kind = .reservedText := by
        have hblank := hlast token (by rw [List.append_nil, List.getLast?_concat]; rfl)
        rwa [Token.isBodyText, hblank, Bool.false_or, beq_iff_eq] at hbody
      have hmem : token ∈ init ++ [token] ++ [] :=
        List.mem_append_left _ (List.mem_append_right _ List.mem_cons_self)
      obtain ⟨hvalue, -, hspace⟩ := hlexed.reservedText_value hmem hkind
      rw [toList_join_values, List.flatMap_append, List.flatMap_singleton,
        List.getLast?_append_of_ne_nil _ hvalue]
      exact fun c hc => hspace c (List.mem_of_getLast? hc)
    · rw [List.getLast?_cons_of_ne_nil hpieces] at htext
      rw [List.getLast?_append_of_ne_nil _ (later.ne_nil hpieces)] at hlast
      exact ih hlexed.right hlast text htext

end BodyPieces

theorem BodyShaped.trimmed {body : List BodyPiece} (h : BodyShaped body) : TrimmedBody body := by
  by_cases hne : body = []
  · subst hne
    exact ⟨nofun, .nil, nofun, nofun⟩
  · obtain ⟨tokens, text, behind, hspells, -, hhead, hlast, hpieces⟩ := h.exists_tokens hne
    have hlexed : Lexed tokens := ⟨text, behind, hspells⟩
    exact ⟨hpieces.texts hlexed, hpieces.separated, hpieces.first hlexed hhead,
      hpieces.last hlexed hlast⟩

/-! ### Regular messages -/

/-- What the nodes of a parsed message are. -/
structure Message.Regular (m : Message) : Prop where
  /-- The names of variables are names. -/
  variableNames : ∀ name ∈ m.variableNames, isName name = true
  /-- The names of functions, options, attributes and markup are names. -/
  names : ∀ i ∈ m.identifiers, isName i.name = true
  /-- Their namespaces are names. -/
  qualifiers : ∀ i ∈ m.identifiers, ∀ qualifier ∈ i.qualifier, isName qualifier = true
  /-- The keywords of reserved statements are names. -/
  keywords : ∀ statement ∈ m.statements, isName statement.keyword = true
  /-- Bare literals are names, unless they are numbers. -/
  bare : ∀ text ∈ m.literals.filterMap Literal.name?, isName text = true
  /-- Numbers are spelled as such. -/
  spelled : ∀ n ∈ m.numbers, isNumberLiteral n.source = true
  /-- Their values are numbers. -/
  valued : ∀ n ∈ m.numbers, n.value ≠ .nan
  /-- Every expression has an operand or a directive. -/
  filled : ∀ e ∈ m.expressions, e.operand ≠ none ∨ e.directive ≠ none
  /-- The operand of an input declaration is a variable. -/
  input : ∀ e, .input e ∈ m.declarations → ∃ name, e.operand = some (.variableName name)
  /-- Every reserved statement has an expression. -/
  statements : ∀ statement ∈ m.statements, statement.expressions ≠ []
  /-- A matcher has a selector and a variant, and every variant of it has a key. -/
  matcher : ∀ matcher ∈ m.matcher?, matcher.selectors ≠ [] ∧ matcher.variants ≠ [] ∧
    ∀ v ∈ matcher.variants, v.keys ≠ []
  /-- No text of a pattern is empty. -/
  texts : ∀ pattern ∈ m.patterns, ∀ text, .text text ∈ pattern → text ≠ ""
  /-- No text of a pattern goes on with another. -/
  separated : ∀ pattern ∈ m.patterns, pattern.IsChain fun a b => a.isText = true → b.isText = false
  /-- The texts of reserved bodies are set apart and trimmed. -/
  bodies : ∀ body ∈ m.bodies, TrimmedBody body

/-- A number that is spelled as one has a value. -/
theorem NumberLiteral.value_ofSource_ne_nan {source : String}
    (h : isNumberLiteral source = true) : (ofSource source).value ≠ .nan := by
  obtain ⟨x, hx, hne⟩ := Binary64.exists_ofText?_of_isNumber (isNumber_toList.2 h)
  rw [ofSource, hx]
  exact hne

theorem Message.WellShaped.numbers {m : Message} (h : m.WellShaped) : ∀ n ∈ m.numbers,
    ∃ source, isNumberLiteral source = true ∧ n = .ofSource source := by
  refine List.forall_mem_filterMap.2 fun l hl n hn => ?_
  cases h.literals l hl with
  | @number source h =>
    cases hn
    exact ⟨source, h, rfl⟩
  | quoted | name => cases hn

theorem Message.WellShaped.regular {m : Message} (h : m.WellShaped) : m.Regular where
  variableNames := h.variableNames
  names i hi := (h.identifiers i hi).name
  qualifiers i hi := (h.identifiers i hi).qualifier
  keywords := List.forall_mem_filterMap.2 fun d hd statement hstatement => by
    cases h.declarations d hd with
    | reserved h _ _ _ =>
      cases hstatement
      exact h.name
    | input | assign => cases hstatement
  bare := List.forall_mem_filterMap.2 fun l hl text htext => by
    cases h.literals l hl with
    | name h =>
      cases htext
      exact h
    | quoted | number => cases htext
  spelled n hn := by
    obtain ⟨source, hsource, rfl⟩ := h.numbers n hn
    exact hsource
  valued n hn := by
    obtain ⟨source, hsource, rfl⟩ := h.numbers n hn
    exact NumberLiteral.value_ofSource_ne_nan hsource
  filled e he := by
    by_cases hoperand : e.operand = none
    · exact .inr ((h.expressions e he).content.content hoperand)
    · exact .inl hoperand
  input e he := by
    cases h.declarations _ he with
    | input _ hoperand => exact ⟨_, hoperand⟩
  statements := List.forall_mem_filterMap.2 fun d hd statement hstatement => by
    cases h.declarations d hd with
    | reserved _ _ hne _ =>
      cases hstatement
      exact hne
    | input | assign => cases hstatement
  matcher matcher hm :=
    ⟨(h.matcher matcher hm).selectors_ne_nil, (h.matcher matcher hm).variants_ne_nil,
      fun v hv => ((h.matcher matcher hm).variants v hv).keys_ne_nil⟩
  texts pattern hp text htext := by
    cases (h.patterns pattern hp).parts _ htext with
    | text hne _ => exact hne
  separated pattern hp := (h.patterns pattern hp).separated
  bodies body hbody := (h.bodies body hbody).trimmed

/-- The rules about nodes that are missing or empty.  No source spells such a node. -/
def hollowCauses : List ErrorCause :=
  [.emptyName, .emptyExpression, .invalidInput, .missingSelector, .missingVariant]

theorem ne_empty_of_isName {name : String} (h : isName name = true) : name ≠ "" := by
  rintro rfl
  exact absurd h (by decide)

theorem Message.Regular.not_breaks {m : Message} (h : m.Regular) :
    ∀ cause ∈ hollowCauses, ¬ m.Breaks cause := by
  simp only [hollowCauses, List.forall_mem_cons, List.not_mem_nil, false_implies, implies_true,
    and_true]
  refine ⟨?_, ?_, ?_, ?_, ?_⟩
  · rintro (hname | ⟨i, hi, hnamed⟩ | ⟨statement, hstatement, hkeyword⟩)
    · exact ne_empty_of_isName (h.variableNames _ hname) rfl
    · refine hnamed ⟨ne_empty_of_isName (h.names i hi), fun hqualifier => ?_⟩
      exact ne_empty_of_isName (h.qualifiers i hi _ hqualifier) rfl
    · have hmem : statement ∈ m.statements := List.mem_filterMap.2 ⟨_, hstatement, rfl⟩
      exact ne_empty_of_isName (h.keywords statement hmem) hkeyword
  · rintro ⟨e, he, hoperand, hdirective⟩
    exact (h.filled e he).elim (absurd hoperand) (absurd hdirective)
  · rintro ⟨e, he, hnone⟩
    obtain ⟨name, hoperand⟩ := h.input e he
    rw [Expression.variableName?_eq_some_iff.2 hoperand] at hnone
    cases hnone
  · rintro ⟨matcher, hm, hnil⟩
    exact (h.matcher matcher hm).1 hnil
  · rintro ⟨matcher, hm, hnil⟩
    exact (h.matcher matcher hm).2.1 hnil

/-- **What the parser builds is well shaped**, node by node, and the check of the data model never
rejects it for a node that is missing or empty. -/
theorem regular_of_parse {source : String} {m : Message} (h : parse source = .ok m) :
    m.Regular ∧ ∀ e, m.validate = .error e → e.cause ∉ hollowCauses := by
  have hregular := (wellShaped_of_parse h).regular
  exact ⟨hregular, fun e he hcause => hregular.not_breaks _ hcause (Message.breaks_of_validate he)⟩

/-- A message with blanks around and inside its reserved bodies, and with every other kind of
node. -/
def reservedSource : String :=
  ".note  a  b|q| \x7b$x @k=v\x7d .match \x7b1.5e3 :number\x7d " ++
    "|one| \x7b\x7bx\x7b#b/\x7d\x7b^ ! y \x7d\x7d\x7d * \x7b\x7b\x7d\x7d"

/-- The blanks that are left in its reserved bodies are those inside of text. -/
theorem regular_of_parse_reserved : ∃ m, parse reservedSource = .ok m ∧
    m.bodies = [[.text "! y"], [.text "a  b", .quoted "q"]] ∧ m.Regular ∧
      ∀ e, m.validate = .error e → e.cause ∉ hollowCauses := by
  have hbodies : (parse reservedSource).toOption.map Message.bodies =
      some [[.text "! y"], [.text "a  b", .quoted "q"]] := by decide +kernel
  obtain ⟨m, hparse, hbodies⟩ := exists_eq_ok_of_map_toOption hbodies
  exact ⟨m, hparse, hbodies, regular_of_parse hparse⟩

end MessageFormat
