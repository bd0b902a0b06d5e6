import MessageFormat.Proofs.Lexing

/-!
# Lexing printed placeholders

The text of a well-shaped node is lexed as tokens that derive the node, wherever such a node may
stand and whatever is printed behind it.

* `Literal.WellShaped.lexes`, `Operand.WellShaped.lexes` : literals and operands;
* `BodyShaped.lexes` : reserved bodies, whose pieces are lexed as they once were;
* `Expression.WellShaped.lexes`, `Markup.WellShaped.lexes` : placeholders.
-/

namespace MessageFormat

open Scanner

variable {before after : Context} {around : Surroundings} {rest : List Char}

/-! ### Literals, operands and keys -/

theorem Literal.WellShaped.beginsItem_print {l : Literal} (h : l.WellShaped) :
    BeginsWith beginsItem l.print.toList := by
  cases h with
  | quoted _ =>
    rw [Literal.print, toList_printQuoted]
    exact ⟨'|', _, rfl, rfl⟩
  | @name text h =>
    rw [Literal.print, if_pos h]
    exact (IsName.beginsWith (isName_toList.2 h)).mono fun _ hc => beginsItem_of hc (by decide)
  | @number source h =>
    rw [Literal.print, NumberLiteral.ofSource, if_pos h]
    exact (isNumber_toList.2 h).beginsWith.mono fun _ hc => beginsItem_of hc (by decide)

theorem Literal.WellShaped.lexes {l : Literal} (h : l.WellShaped)
    (hafter : ∀ kind : TokenKind, kind.isLiteral = true → before.after kind = some after)
    (hrest : BeginsWith isDelimiter rest) :
    Lexes before l.print.toList rest after (Literal.Derives · l) := by
  cases h with
  | quoted h =>
    refine .token (spells_printQuoted h) (hafter _ rfl) nofun fun token hkind hvalue => ?_
    rw [← hvalue]
    exact .quoted hkind
  | name h =>
    rw [Literal.print, if_pos h]
    have hspells : TokenKind.nameLiteral.Spells _ _ rest := spellsName h hrest
    refine .token hspells (hafter _ rfl) nofun fun token hkind hvalue => ?_
    rw [← hvalue]
    exact .name hkind
  | @number source h =>
    rw [Literal.print, NumberLiteral.ofSource, if_pos h]
    have hspells : TokenKind.numberLiteral.Spells source.toList source.toList rest :=
      ⟨rfl, isNumber_toList.2 h, hrest.stopsAt_name⟩
    refine .token hspells (hafter _ rfl) nofun fun token hkind hvalue => ?_
    rw [← hvalue]
    exact .number hkind

theorem Operand.WellShaped.beginsItem_print {operand : Operand} (h : operand.WellShaped) :
    BeginsWith beginsItem operand.print.toList := by
  cases h with
  | literal h => exact h.beginsItem_print
  | @variableName name _ =>
    rw [Operand.print, String.toList_append]
    exact ⟨'$', name.toList, rfl, rfl⟩

theorem lexes_variableName {name : String} (h : isName name = true)
    (hafter : before.after .variableName = some after) (hrest : BeginsWith isDelimiter rest)
    {P : List Token → Prop}
    (hP : ∀ token : Token, token.kind = .variableName → token.value = name → P [token]) :
    Lexes before ("$" ++ name).toList rest after P := by
  rw [String.toList_append]
  have hspells : TokenKind.variableName.Spells ("$".toList ++ name.toList) name.toList rest :=
    spellsName h hrest
  exact .token hspells hafter nofun hP

theorem Operand.WellShaped.lexes {operand : Operand} (h : operand.WellShaped)
    (hafter : ∀ kind : TokenKind, kind.isLiteral = true → before.after kind = some after)
    (hvariable : before.after .variableName = some after) (hrest : BeginsWith isDelimiter rest) :
    Lexes before operand.print.toList rest after (Operand.Derives · operand) := by
  cases h with
  | literal h => exact (h.lexes hafter hrest).mono fun _ h => .literal h
  | variableName h =>
    refine lexes_variableName h hvariable hrest fun token hkind hvalue => ?_
    rw [← hvalue]
    exact .variableName hkind

theorem Context.header_after_literal (kind : TokenKind) (h : kind.isLiteral = true) :
    Context.header.after kind = some .header := by
  cases kind with
  | nameLiteral | quotedLiteral | numberLiteral => rfl
  | _ => cases h

theorem VariantKey.WellShaped.beginsItem_print {key : VariantKey} (h : key.WellShaped) :
    BeginsWith beginsItem key.print.toList := by
  cases h with
  | literal h => exact h.beginsItem_print
  | catchAll => exact ⟨'*', [], rfl, rfl⟩

theorem VariantKey.WellShaped.lexes {key : VariantKey} (h : key.WellShaped)
    (hrest : BeginsWith isDelimiter rest) :
    Lexes .header key.print.toList rest .header (VariantKey.Derives · key) := by
  cases h with
  | literal h =>
    exact (h.lexes Context.header_after_literal hrest).mono fun _ h => .literal h
  | catchAll =>
    have hspells : TokenKind.catchAll.Spells ['*'] "*".toList rest := ⟨rfl, rfl⟩
    exact .token hspells rfl nofun fun token hkind _ => .catchAll hkind

/-! ### Inside an expression -/

/-- What has been seen of an expression behind its first token, if no value is awaited. -/
def settled (inMarkup takesOptions : Bool) : ExpressionState :=
  ⟨false, inMarkup, takesOptions, false⟩

/-- A bare name is a literal where no option may stand or its value is awaited. -/
theorem Context.expression_after_literal {state : ExpressionState}
    (hstate : (state.takesOptions && !state.awaitsValue) = false) (kind : TokenKind)
    (h : kind.isLiteral = true) : (Context.expression around state).after kind =
      some (.expression around (settled state.inMarkup state.takesOptions)) := by
  cases kind with
  | nameLiteral =>
    simp only [Context.after, afterExpression, hstate]
    rfl
  | quotedLiteral | numberLiteral => rfl
  | _ => cases h

theorem Operand.WellShaped.lexes_expression {operand : Operand} (h : operand.WellShaped)
    {state : ExpressionState} (hstate : (state.takesOptions && !state.awaitsValue) = false)
    (hrest : BeginsWith isDelimiter rest) :
    Lexes (.expression around state) operand.print.toList rest
      (.expression around (settled state.inMarkup state.takesOptions))
      (Operand.Derives · operand) :=
  h.lexes (Context.expression_after_literal hstate) rfl hrest

theorem Operand.WellShaped.lexes_assigned {value : Operand} (h : value.WellShaped) {m t : Bool}
    (hrest : BeginsWith isDelimiter rest) :
    Lexes (.expression around (settled m t)) (['='] ++ value.print.toList) rest
      (.expression around (settled m t)) (Assigned · value) := by
  have hspells : TokenKind.equals.Spells ['='] "=".toList (value.print.toList ++ rest) :=
    ⟨rfl, rfl⟩
  have hvalue : Lexes (.expression around ⟨false, m, t, true⟩) value.print.toList rest
      (.expression around (settled m t)) (Operand.Derives · value) :=
    h.lexes_expression (Bool.and_false t) hrest
  exact .cons hspells rfl nofun hvalue fun _ _ hkind _ h => .intro .nothing hkind .nothing h

/-! ### Options and attributes -/

theorem Identifier.WellShaped.beginsItem_text {identifier : Identifier}
    (h : identifier.WellShaped) : BeginsWith beginsItem identifier.text.toList :=
  h.isIdentifier_text.beginsWith.mono fun _ hc => beginsItem_of hc (by decide)

theorem NamedOption.toList_print (o : NamedOption) : o.print.toList =
    [' '] ++ (o.identifier.text.toList ++ (['='] ++ o.value.print.toList)) := by
  simp [NamedOption.print, String.toList_append]

theorem NamedOption.WellShaped.lexes {o : NamedOption} (h : o.WellShaped) {m : Bool}
    (hrest : BeginsWith isDelimiter rest) :
    Lexes (.expression around (settled m true)) o.print.toList rest
      (.expression around (settled m true)) (Behind Separator NamedOption.Derives · o) := by
  rw [NamedOption.toList_print]
  have hspells : TokenKind.optionName.Spells ([] ++ o.identifier.text.toList)
      o.identifier.text.toList (['='] ++ o.value.print.toList ++ rest) :=
    h.identifier.spells ⟨'=', _, rfl, rfl⟩
  have hoption : Lexes (.expression around (settled m true))
      (o.identifier.text.toList ++ (['='] ++ o.value.print.toList)) rest
      (.expression around (settled m true)) (NamedOption.Derives · o) := by
    refine .cons hspells rfl nofun (h.value.lexes_assigned hrest) ?_
    intro name tokens hkind hvalue hvalued
    have hderives := NamedOption.Derives.intro hkind hvalued
    rwa [hvalue, h.identifier.ofText_text] at hderives
  exact .behindSpace rfl (h.identifier.beginsItem_text.append _).stopsAt_blank hoption

theorem printOptions_toList (options : List NamedOption) :
    (printOptions options).toList = options.flatMap (·.print.toList) := by
  rw [printOptions, String.toList_join, List.flatMap_map]

theorem follows_options {options : List NamedOption} (hrest : BeginsWith isDelimiter rest) :
    BeginsWith isDelimiter ((printOptions options).toList ++ rest) := by
  rw [printOptions_toList]
  refine follows_flatMap (fun o _ rest => ?_) hrest
  rw [NamedOption.toList_print]
  exact ⟨' ', _, rfl, rfl⟩

theorem lexes_options {options : List NamedOption} (h : ∀ o ∈ options, o.WellShaped) {m : Bool}
    (hrest : BeginsWith isDelimiter rest) :
    Lexes (.expression around (settled m true)) (printOptions options).toList rest
      (.expression around (settled m true)) (NamedOptions · options) := by
  rw [printOptions_toList]
  refine .repeated (BeginsWith isDelimiter) (fun o ho _ hrest => (h o ho).lexes hrest)
    (fun o _ rest => ?_) hrest
  rw [NamedOption.toList_print]
  exact ⟨' ', _, rfl, rfl⟩

/-- A context in which attributes or the end of an expression may stand. -/
structure Context.TakesAttributes (context : Context) (around : Surroundings) (m : Bool) :
    Prop where
  /-- Blanks change nothing. -/
  blank : context.after .blank = some context
  /-- Behind an attribute, options may no longer stand. -/
  attributeName : context.after .attributeName = some (.expression around (settled m false))
  /-- The expression may end. -/
  expressionClose : context.after .expressionClose = some around.context
  /-- Markup may end with a slash. -/
  selfClose : m = true → context.after .selfClose = some context

theorem Context.takesAttributes_expression (m t : Bool) :
    (Context.expression around (settled m t)).TakesAttributes around m where
  blank := rfl
  attributeName := rfl
  expressionClose := rfl
  selfClose := by
    rintro rfl
    rfl

theorem Context.takesAttributes_reservedDirective (t : Bool) :
    (Context.reservedDirective around (settled false t)).TakesAttributes around false where
  blank := rfl
  attributeName := rfl
  expressionClose := rfl
  selfClose := nofun

/-- The text of the value of an attribute, if it has one. -/
def printAssigned : Option Operand → List Char
  | some value => ['='] ++ value.print.toList
  | none => []

theorem Attribute.toList_print (a : Attribute) : a.print.toList =
    [' '] ++ (['@'] ++ a.identifier.text.toList ++ printAssigned a.value) := by
  obtain ⟨identifier, value⟩ := a
  cases value <;> simp [Attribute.print, printAssigned, String.toList_append]

theorem Attribute.WellShaped.lexes {a : Attribute} (h : a.WellShaped) {m : Bool}
    (hbefore : before.TakesAttributes around m) (hrest : BeginsWith isDelimiter rest) :
    Lexes before a.print.toList rest (.expression around (settled m false))
      (Behind Separator Attribute.Derives · a) := by
  rw [Attribute.toList_print]
  obtain ⟨identifier, value⟩ := a
  have hidentifier : identifier.WellShaped := h.identifier
  have hspells (rest : List Char) (hrest : BeginsWith isDelimiter rest) :
      TokenKind.attributeName.Spells (['@'] ++ identifier.text.toList) identifier.text.toList
        rest :=
    hidentifier.spells hrest
  have hattribute : Lexes before (['@'] ++ identifier.text.toList ++ printAssigned value) rest
      (.expression around (settled m false)) (Attribute.Derives · ⟨identifier, value⟩) := by
    cases value with
    | none =>
      rw [printAssigned, List.append_nil]
      refine .token (hspells rest hrest) hbefore.attributeName nofun fun name hkind hvalue => ?_
      have hderives := Attribute.Derives.bare hkind
      rwa [hvalue, hidentifier.ofText_text] at hderives
    | some value =>
      refine .cons (hspells _ ⟨'=', _, rfl, rfl⟩) hbefore.attributeName nofun
        ((h.value value rfl).lexes_assigned hrest) fun name tokens hkind hvalue hvalued => ?_
      have hderives := Attribute.Derives.assigned hkind hvalued
      rwa [hvalue, hidentifier.ofText_text] at hderives
  have hstop : BeginsWith beginsItem (['@'] ++ identifier.text.toList ++ printAssigned value) :=
    ⟨'@', _, rfl, rfl⟩
  exact .behindSpace hbefore.blank hstop.stopsAt_blank hattribute

theorem printAttributes_toList (attributes : List Attribute) :
    (printAttributes attributes).toList = attributes.flatMap (·.print.toList) := by
  rw [printAttributes, String.toList_join, List.flatMap_map]

/-- Behind attributes, there may be attributes still. -/
theorem lexes_attributes {attributes : List Attribute} (h : ∀ a ∈ attributes, a.WellShaped)
    {m : Bool} (hbefore : before.TakesAttributes around m) (hrest : BeginsWith isDelimiter rest) :
    ∃ after : Context, after.TakesAttributes around m ∧
      Lexes before (printAttributes attributes).toList rest after (Attributes · attributes) := by
  have hprint (a : Attribute) (rest : List Char) :
      BeginsWith isDelimiter (a.print.toList ++ rest) := by
    rw [Attribute.toList_print]
    exact ⟨' ', _, rfl, rfl⟩
  have hsettled : (Context.expression around (settled m false)).TakesAttributes around m :=
    Context.takesAttributes_expression m false
  rw [printAttributes_toList]
  cases attributes with
  | nil => exact ⟨before, hbefore, .nil .nil⟩
  | cons a attributes =>
    -- only the first attribute stands where options may stand too
    rw [List.forall_mem_cons] at h
    have hlater : Lexes (.expression around (settled m false))
        (attributes.flatMap (·.print.toList)) rest (.expression around (settled m false))
        (Attributes · attributes) :=
      .repeated (BeginsWith isDelimiter) (fun a ha _ hrest => (h.2 a ha).lexes hsettled hrest)
        (fun a _ => hprint a) hrest
    have hfollows : BeginsWith isDelimiter (attributes.flatMap (·.print.toList) ++ rest) :=
      follows_flatMap (fun a _ => hprint a) hrest
    rw [List.flatMap_cons]
    exact ⟨_, hsettled, (h.1.lexes hbefore hfollows).append hlater fun _ _ h later =>
      .cons h later⟩

/-! ### Reserved bodies -/

/-- The text of a token of a reserved body. -/
def Token.printOfBody (token : Token) : List Char :=
  if token.kind = .quotedLiteral then (printQuoted token.value).toList
  else (escapeReserved token.value).toList

/-- What a token is and what it says, wherever it stands. -/
def Token.content (token : Token) : TokenKind × String := (token.kind, token.value)

theorem escapeReserved_join (texts : List String) :
    (escapeReserved (String.join texts)).toList =
      texts.flatMap fun text => (escapeReserved text).toList := by
  simp only [escapeReserved, toList_escape, String.toList_join, List.flatMap_assoc]

theorem escapeReserved_of_blank {text : String} (h : ∀ c ∈ text.toList, isBlank c = true) :
    (escapeReserved text).toList = text.toList := by
  have hblanks : leavesOut isEscapable blanks = true := by decide
  rw [escapeReserved, toList_escape]
  generalize text.toList = characters at h
  induction characters with
  | nil => rfl
  | cons c characters ih =>
    rw [List.forall_mem_cons] at h
    rw [List.flatMap_cons, eq_false_of_leavesOut hblanks (isBlank_iff.1 h.1), ih h.2]
    rfl

/-- The pieces of a body are printed as its tokens are. -/
theorem BodyPieces.toList_printBody {tokens : List Token} {body : List BodyPiece}
    (h : BodyPieces tokens body) : (printBody body).toList = tokens.flatMap Token.printOfBody := by
  rw [printBody, String.toList_join, List.flatMap_map]
  induction h with
  | nil => rfl
  | quoted h _ ih =>
    rw [List.flatMap_cons, List.flatMap_cons, ih, Token.printOfBody, if_pos h]
    rfl
  | @text run tokens pieces _ hrun _ _ ih =>
    have hprint : (BodyPiece.text (String.join (run.map Token.value))).print.toList =
        run.flatMap Token.printOfBody := by
      rw [BodyPiece.print, escapeReserved_join, List.flatMap_map]
      refine List.flatMap_congr fun token htoken => ?_
      have hkind : token.kind ≠ .quotedLiteral := by
        intro hkind
        have htext := hrun token htoken
        rw [Token.isBodyText, Token.isBlank, hkind] at htext
        cases htext
      rw [Token.printOfBody, if_neg hkind]
    rw [List.flatMap_cons, List.flatMap_append, ih, hprint]

/-- Pieces depend on nothing but what the tokens are and say. -/
theorem BodyPieces.congr {tokens others : List Token} {body : List BodyPiece}
    (h : BodyPieces tokens body) (hcontent : others.map Token.content = tokens.map Token.content) :
    BodyPieces others body := by
  have hkind {a b : Token} (h : a.content = b.content) : a.kind = b.kind := congrArg Prod.fst h
  have hvalue {a b : Token} (h : a.content = b.content) : a.value = b.value := congrArg Prod.snd h
  have htext {a b : Token} (h : a.content = b.content) : a.isBodyText = b.isBodyText := by
    rw [Token.isBodyText, Token.isBlank, hkind h, Token.isBodyText, Token.isBlank]
  induction h generalizing others with
  | nil =>
    obtain rfl := List.map_eq_nil_iff.1 hcontent
    exact .nil
  | quoted h _ ih =>
    obtain ⟨other, later, rfl, hother, hlater⟩ := List.map_eq_cons_iff.1 hcontent
    rw [← hvalue hother]
    exact .quoted ((hkind hother).trans h) (ih hlater)
  | @text run tokens pieces hne hrun hstop _ ih =>
    rw [List.map_append] at hcontent
    obtain ⟨first, later, rfl, hfirst, hlater⟩ := List.map_eq_append_iff.1 hcontent
    have hvalues : run.map Token.value = first.map Token.value := by
      have h := congrArg (List.map Prod.snd) hfirst
      rw [List.map_map, List.map_map] at h
      exact h.symm
    rw [hvalues]
    refine .text ?_ ?_ ?_ (ih hlater)
    · rintro rfl
      exact hne (List.map_eq_nil_iff.1 hfirst.symm)
    · intro token htoken
      have hmem := List.mem_map_of_mem (f := Token.content) htoken
      rw [hfirst] at hmem
      obtain ⟨old, hold, heq⟩ := List.mem_map.1 hmem
      rw [← htext heq]
      exact hrun old hold
    · intro token htoken
      have hhead := congrArg List.head? hlater
      rw [List.head?_map, List.head?_map, Option.mem_def.1 htoken, Option.map_some] at hhead
      obtain ⟨old, hold, heq⟩ := Option.map_eq_some_iff.1 hhead.symm
      rw [← htext heq]
      exact hstop old hold

/-- Blanks and text of a body are printed as they were spelled. -/
theorem printOfBody_eq {token : Token} {taken text : List Char} (h : token.Spells taken text)
    (hbody : token.isOfBody = true) (hquoted : token.kind ≠ .quotedLiteral) :
    token.printOfBody = taken := by
  rw [Token.printOfBody, if_neg hquoted]
  simp only [Token.isOfBody, Bool.or_eq_true, beq_iff_eq, hquoted, or_false] at hbody
  rcases hbody with hkind | hkind
  · rw [Token.Spells, hkind] at h
    obtain ⟨rfl, ⟨-, hblank⟩, -⟩ := h
    exact escapeReserved_of_blank hblank
  · rw [Token.Spells, hkind] at h
    rw [escapeReserved, toList_escape]
    exact h.1.2.1.eq_escape.symm

/-- A token of a body is printed with the first character of its spelling. -/
theorem exists_head_printOfBody {token : Token} {taken text : List Char}
    (h : token.Spells taken text) (hbody : token.isOfBody = true) :
    ∃ c a b, taken = c :: a ∧ token.printOfBody = c :: b := by
  by_cases hquoted : token.kind = .quotedLiteral
  · rw [Token.Spells, hquoted] at h
    obtain ⟨body, rfl, -⟩ := h
    rw [Token.printOfBody, if_pos hquoted, toList_printQuoted]
    exact ⟨'|', _, _, rfl, rfl⟩
  · have hprint := printOfBody_eq h hbody hquoted
    obtain ⟨c, a, rfl, -⟩ := TokenKind.Spells.beginsWith h
    exact ⟨c, a, a, rfl, hprint⟩

/-- The printed token spells the token, ahead of what does not go on with it. -/
theorem spells_printOfBody {token : Token} {taken text : List Char} (h : token.Spells taken text)
    (hbody : token.isOfBody = true) (hblank : token.kind = .blank → StopsAt isBlank rest)
    (hreserved : token.kind = .reservedText → StopsAt (goesOn isReservedChar) rest) :
    token.kind.Spells token.printOfBody token.value.toList rest := by
  by_cases hquoted : token.kind = .quotedLiteral
  · rw [Token.Spells, hquoted] at h
    obtain ⟨body, -, hdecodes⟩ := h
    rw [Token.printOfBody, if_pos hquoted, hquoted]
    exact spells_printQuoted (hdecodes.not_mem (by decide) (by decide))
  · rw [printOfBody_eq h hbody hquoted]
    simp only [Token.isOfBody, Bool.or_eq_true, beq_iff_eq, hquoted, or_false] at hbody
    rcases hbody with hkind | hkind
    · rw [Token.Spells, hkind] at h
      rw [hkind]
      exact ⟨h.1, h.2.1, hblank hkind⟩
    · rw [Token.Spells, hkind] at h
      rw [hkind]
      exact ⟨⟨h.1.1, h.1.2.1, hreserved hkind⟩, h.2⟩

theorem SpellsOut.stopsAt_printed {tokens : List Token} {text behind : List Char}
    (h : SpellsOut tokens text behind) (hbody : ∀ token ∈ tokens, token.isOfBody = true)
    (hne : tokens ≠ []) {p : Char → Bool} (hstop : StopsAt p text) :
    StopsAt p (tokens.flatMap Token.printOfBody ++ rest) := by
  cases h with
  | nil => exact absurd rfl hne
  | cons h _ =>
    obtain ⟨c, a, b, htaken, hprint⟩ := exists_head_printOfBody h (hbody _ List.mem_cons_self)
    rw [htaken, List.cons_append, stopsAt_cons] at hstop
    rw [List.flatMap_cons, hprint, List.cons_append, List.cons_append, stopsAt_cons]
    exact hstop

/-- The tokens of a body are lexed again as they are printed, since each still begins with the
character that the one before it stopped at. -/
theorem SpellsOut.lexes_printed {tokens : List Token} {text behind : List Char}
    (h : SpellsOut tokens text behind) (hbody : ∀ token ∈ tokens, token.isOfBody = true)
    (hbefore : ∀ token : Token, token.isOfBody = true → before.after token.kind = some before)
    (hlast : ∀ token ∈ tokens.getLast?, token.isBlank = false) (hrest : BeginsWith endsBody rest) :
    Lexes before (tokens.flatMap Token.printOfBody) rest before fun others =>
      others.map Token.content = tokens.map Token.content := by
  induction h with
  | nil => exact .nil rfl
  | @cons token tokens taken text behind h later ih =>
    rw [List.forall_mem_cons] at hbody
    have hlater : ∀ last ∈ tokens.getLast?, last.isBlank = false := by
      intro last hmem
      refine hlast last ?_
      rw [List.getLast?_cons, Option.mem_def.1 hmem]
      rfl
    have hspells : token.kind.Spells token.printOfBody token.value.toList
        (tokens.flatMap Token.printOfBody ++ rest) := by
      by_cases hne : tokens = []
      -- the last token is no run of blanks, which the next one could go on with
      · subst hne
        refine spells_printOfBody h hbody.1 (fun hkind => ?_) fun _ => hrest.stopsAt_reserved
        have hblank := hlast token rfl
        rw [Token.isBlank, hkind] at hblank
        cases hblank
      -- the next token stopped this one when it was first read, and it begins as it did then
      · refine spells_printOfBody h hbody.1 (fun hkind => ?_) fun hkind => ?_
        · rw [Token.Spells, hkind] at h
          exact later.stopsAt_printed hbody.2 hne h.2.2
        · rw [Token.Spells, hkind] at h
          exact later.stopsAt_printed hbody.2 hne h.1.2.2
    have hopen : before.opensPattern = true → token.kind = .expressionOpen →
        (tokens.flatMap Token.printOfBody ++ rest).head? ≠ some '{' := by
      intro _ hkind
      have hkinds := hbody.1
      rw [Token.isOfBody, hkind] at hkinds
      cases hkinds
    refine .cons hspells (hbefore token hbody.1) hopen (ih hbody.2 hlater) ?_
    intro other others hkind hvalue hothers
    rw [List.map_cons, List.map_cons, hothers, Token.content, hkind, hvalue]
    rfl

/-- A body that is not empty is made up by tokens without blanks at their ends. -/
theorem BodyShaped.exists_tokens {body : List BodyPiece} (h : BodyShaped body) (hne : body ≠ []) :
    ∃ tokens text behind, SpellsOut tokens text behind ∧ tokens ≠ [] ∧
      (∀ token ∈ tokens.head?, token.isBlank = false) ∧
        (∀ token ∈ tokens.getLast?, token.isBlank = false) ∧ BodyPieces tokens body := by
  obtain ⟨tokens, hlexed, hbody⟩ := h
  cases hbody with
  | nothing => exact absurd rfl hne
  | pieces _ hne hhead hlast hpieces =>
    obtain ⟨text, behind, hspells⟩ := hlexed.right
    exact ⟨_, text, behind, hspells, hne, hhead, hlast, hpieces⟩

theorem not_isBlank_of_content {tokens others : List Token} {token : Token}
    (hcontent : others.map Token.content = tokens.map Token.content)
    {pick : ∀ {α : Type}, List α → Option α}
    (hpick : ∀ tokens : List Token,
      pick (tokens.map Token.content) = (pick tokens).map Token.content)
    (h : ∀ token ∈ pick tokens, token.isBlank = false) (hmem : token ∈ pick others) :
    token.isBlank = false := by
  have heq := congrArg pick hcontent
  rw [hpick, hpick, Option.mem_def.1 hmem, Option.map_some] at heq
  obtain ⟨old, hold, heq⟩ := Option.map_eq_some_iff.1 heq.symm
  have hkind : old.kind = token.kind := congrArg Prod.fst heq
  rw [Token.isBlank, ← hkind]
  exact h old hold

/-- **A reserved body is lexed as it once was**, behind any gap. -/
theorem BodyShaped.lexes {body : List BodyPiece} (h : BodyShaped body) (hne : body ≠ [])
    (hbefore : ∀ token : Token, token.isOfBody = true → before.after token.kind = some before)
    (hrest : BeginsWith endsBody rest) :
    Lexes before (printBody body).toList rest before fun tokens =>
      ∀ gap, Gap gap → ReservedBody (gap ++ tokens) body := by
  obtain ⟨tokens, text, behind, hspells, htokens, hhead, hlast, hpieces⟩ := h.exists_tokens hne
  rw [hpieces.toList_printBody]
  refine (hspells.lexes_printed hpieces.isOfBody hbefore hlast hrest).mono ?_
  intro others hcontent gap hgap
  refine .pieces hgap ?_ ?_ ?_ (hpieces.congr hcontent)
  · rintro rfl
    exact htokens (List.map_eq_nil_iff.1 hcontent.symm)
  · intro token hmem
    exact not_isBlank_of_content hcontent (fun _ => List.head?_map) hhead hmem
  · intro token hmem
    exact not_isBlank_of_content hcontent (fun _ => List.getLast?_map) hlast hmem

theorem BodyShaped.stopsAt_blank {body : List BodyPiece} (h : BodyShaped body) (hne : body ≠ []) :
    StopsAt isBlank ((printBody body).toList ++ rest) := by
  obtain ⟨tokens, text, behind, hspells, htokens, hhead, -, hpieces⟩ := h.exists_tokens hne
  rw [hpieces.toList_printBody]
  refine hspells.stopsAt_printed hpieces.isOfBody htokens ?_
  cases hspells with
  | nil => exact absurd rfl htokens
  | @cons token _ taken _ _ h _ =>
    have hblank : token.isBlank = false := hhead token rfl
    have hbody := hpieces.isOfBody token List.mem_cons_self
    simp only [Token.isBlank, beq_eq_false_iff_ne] at hblank
    simp only [Token.isOfBody, Bool.or_eq_true, beq_iff_eq, hblank, false_or] at hbody
    obtain ⟨c, later, rfl, -⟩ := TokenKind.Spells.beginsWith h
    rw [List.cons_append, stopsAt_cons]
    rcases hbody with hkind | hkind
    · rw [Token.Spells, hkind] at h
      exact stopsAt_cons.1 h.2
    · rw [Token.Spells, hkind] at h
      obtain ⟨_, heq, -⟩ := h
      rw [(List.cons.inj heq).1]
      rfl

/-! ### Directives -/

theorem Context.afterReserved_of_isOfBody {within : Context} {behind : TokenKind → Option Context}
    {token : Token} (h : token.isOfBody = true) :
    Context.afterReserved within behind token.kind = some within := by
  simp only [Token.isOfBody, Bool.or_eq_true, beq_iff_eq] at h
  rcases h with (h | h) | h <;> rw [h] <;> rfl

theorem toList_directive (directive : ReservedDirective) :
    (String.singleton directive.sigil ++ printBody directive.body).toList =
      [directive.sigil] ++ (printBody directive.body).toList := by
  rw [String.toList_append, String.toList_singleton]

theorem Directive.WellShaped.beginsItem_print {directive : Directive} (h : directive.WellShaped) :
    BeginsWith beginsItem directive.print.toList := by
  cases h with
  | @function call _ _ =>
    rw [Directive.print, String.toList_append, String.toList_append]
    exact ⟨':', _, rfl, rfl⟩
  | @reserved directive hsigil _ =>
    rw [Directive.print, toList_directive]
    exact ⟨directive.sigil, _, rfl, beginsItem_of hsigil (by decide)⟩
  | @privateUse directive hsigil _ =>
    rw [Directive.print, toList_directive]
    exact ⟨directive.sigil, _, rfl, beginsItem_of hsigil (by decide)⟩

/-- A sigil and the body behind it. -/
theorem lexes_reservedDirective {kind : TokenKind} {directive : ReservedDirective} {s : Bool}
    (hspells : ∀ rest, kind.Spells [directive.sigil] [directive.sigil] rest)
    (hafter : (Context.expression around ⟨s, false, false, false⟩).after kind =
      some (.reservedDirective around (settled false false)))
    (hbody : BodyShaped directive.body) (hrest : BeginsWith endsBody rest) {P : List Token → Prop}
    (hP : ∀ token later, token.kind = kind → token.value = String.singleton directive.sigil →
      ReservedBody later directive.body → P (token :: later)) :
    Lexes (.expression around ⟨s, false, false, false⟩)
      ([directive.sigil] ++ (printBody directive.body).toList) rest
      (.reservedDirective around (settled false false)) P := by
  have hspells : kind.Spells [directive.sigil] (String.singleton directive.sigil).toList
      ((printBody directive.body).toList ++ rest) := by
    rw [String.toList_singleton]
    exact hspells _
  have hlater : Lexes (.reservedDirective around (settled false false))
      (printBody directive.body).toList rest (.reservedDirective around (settled false false))
      (ReservedBody · directive.body) := by
    by_cases hne : directive.body = []
    · rw [hne]
      exact .nil .nothing
    · exact (hbody.lexes hne (fun _ => Context.afterReserved_of_isOfBody) hrest).mono
        fun _ h => h [] .nothing
  exact .cons hspells hafter nofun hlater hP

theorem Directive.WellShaped.lexes {directive : Directive} (h : directive.WellShaped)
    (around : Surroundings) {s : Bool} (hrest : BeginsWith endsBody rest) :
    ∃ after : Context, after.TakesAttributes around false ∧
      Lexes (.expression around ⟨s, false, false, false⟩) directive.print.toList rest after
        (Directive.Derives · directive) := by
  cases h with
  | @function call hidentifier hoptions =>
    have hdelimiter := hrest.mono isDelimiter_of_endsBody
    have hspells : TokenKind.functionName.Spells ([':'] ++ call.identifier.text.toList)
        call.identifier.text.toList ((printOptions call.options).toList ++ rest) :=
      hidentifier.spells (follows_options hdelimiter)
    refine ⟨_, Context.takesAttributes_expression false true, ?_⟩
    rw [Directive.print, String.toList_append, String.toList_append]
    refine .cons hspells rfl nofun (lexes_options hoptions hdelimiter) ?_
    intro name tokens hkind hvalue h
    have hderives := Directive.Derives.function hkind h
    rwa [hvalue, hidentifier.ofText_text] at hderives
  | @reserved directive hsigil hbody =>
    have hspells (rest : List Char) :
        TokenKind.reservedSigil.Spells [directive.sigil] [directive.sigil] rest :=
      ⟨rfl, _, hsigil, rfl⟩
    refine ⟨_, Context.takesAttributes_reservedDirective false, ?_⟩
    rw [Directive.print, toList_directive]
    exact lexes_reservedDirective hspells rfl hbody hrest fun _ _ hkind hvalue h =>
      .reserved hkind hvalue h
  | @privateUse directive hsigil hbody =>
    have hspells (rest : List Char) :
        TokenKind.privateSigil.Spells [directive.sigil] [directive.sigil] rest :=
      ⟨rfl, _, hsigil, rfl⟩
    refine ⟨_, Context.takesAttributes_reservedDirective false, ?_⟩
    rw [Directive.print, toList_directive]
    exact lexes_reservedDirective hspells rfl hbody hrest fun _ _ hkind hvalue h =>
      .privateUse hkind hvalue h

/-! ### Expressions -/

/-- The text of what an expression is about. -/
def printContent : Option Operand → Option Directive → List Char
  | some operand, some directive =>
    operand.print.toList ++ ([' '] ++ directive.print.toList)
  | some operand, none => operand.print.toList
  | none, some directive => directive.print.toList
  | none, none => []

theorem Expression.toList_print (e : Expression) : e.print.toList =
    ['{'] ++ (printContent e.operand e.directive ++
      ((printAttributes e.attributes).toList ++ ['}'])) := by
  obtain ⟨operand, directive, attributes⟩ := e
  cases operand <;> cases directive <;>
    simp [Expression.print, printContent, String.toList_append]

theorem ContentShaped.beginsItem_print {operand : Option Operand} {directive : Option Directive}
    (h : ContentShaped operand directive) :
    BeginsWith beginsItem (printContent operand directive) := by
  cases operand with
  | some operand =>
    have hoperand := (h.operand operand rfl).beginsItem_print
    cases directive with
    | some directive => exact hoperand.append _
    | none => exact hoperand
  | none =>
    cases directive with
    | some directive => exact (h.directive directive rfl).beginsItem_print
    | none => exact absurd rfl (h.content rfl)

theorem ContentShaped.lexes {operand : Option Operand} {directive : Option Directive}
    (h : ContentShaped operand directive) (around : Surroundings)
    (hrest : BeginsWith endsBody rest) :
    ∃ after : Context, after.TakesAttributes around false ∧
      Lexes (.expression around {}) (printContent operand directive) rest after
        (Content · operand directive) := by
  have hdelimiter := hrest.mono isDelimiter_of_endsBody
  cases operand with
  | none =>
    cases directive with
    | none => exact absurd rfl (h.content rfl)
    | some directive =>
      obtain ⟨after, hafter, hlexes⟩ := (h.directive directive rfl).lexes around (s := true) hrest
      exact ⟨after, hafter, hlexes.mono fun _ h => .directive h⟩
  | some operand =>
    cases directive with
    | none =>
      have hlexes : Lexes (.expression around {}) operand.print.toList rest
          (.expression around (settled false false)) (Operand.Derives · operand) :=
        (h.operand operand rfl).lexes_expression rfl hdelimiter
      exact ⟨_, Context.takesAttributes_expression false false, hlexes.mono fun _ h => .operand h⟩
    | some directive =>
      have hdirective := h.directive directive rfl
      obtain ⟨after, hafter, hlexes⟩ := hdirective.lexes around (s := false) hrest
      have hbehind : Lexes (.expression around (settled false false))
          ([' '] ++ directive.print.toList) rest after
          (Behind Separator Directive.Derives · directive) :=
        .behindSpace rfl hdirective.beginsItem_print.stopsAt_blank hlexes
      exact ⟨after, hafter, ((h.operand operand rfl).lexes_expression rfl ⟨' ', _, rfl, rfl⟩).append
        hbehind fun _ _ hoperand h => .both hoperand h⟩

theorem follows_attributes {p : Char → Bool} {attributes : List Attribute}
    (hspace : p ' ' = true) (hrest : BeginsWith p rest) :
    BeginsWith p ((printAttributes attributes).toList ++ rest) := by
  rw [printAttributes_toList]
  refine follows_flatMap (fun a _ rest => ?_) hrest
  rw [Attribute.toList_print]
  exact ⟨' ', _, rfl, hspace⟩

theorem lexes_expressionClose (hafter : before.after .expressionClose = some after) :
    Lexes before ['}'] rest after fun tokens =>
      ∃ closing : Token, tokens = [closing] ∧ closing.kind = .expressionClose := by
  have hspells : TokenKind.expressionClose.Spells ['}'] "\x7d".toList rest := ⟨rfl, rfl⟩
  exact .token hspells hafter nofun fun closing hclosing _ => ⟨closing, rfl, hclosing⟩

/-- A brace before what begins with an item, not with another brace. -/
theorem Lexes.braced {text : List Char} {P Q : List Token → Prop}
    (hopen : before.after .expressionOpen = some (.expression around {}))
    (hbegins : BeginsWith beginsItem text) (later : Lexes (.expression around {}) text rest after P)
    (hQ : ∀ opening tokens, opening.kind = .expressionOpen → P tokens → Q (opening :: tokens)) :
    Lexes before (['{'] ++ text) rest after Q := by
  have hspells : TokenKind.expressionOpen.Spells ['{'] "\x7b".toList (text ++ rest) := ⟨rfl, rfl⟩
  exact .cons hspells hopen (fun _ _ => hbegins.head?_ne_brace) later
    fun opening tokens hkind _ h => hQ opening tokens hkind h

/-- **A printed expression is lexed as one**, whatever stands behind it. -/
theorem Expression.WellShaped.lexes {e : Expression} (h : e.WellShaped)
    (hopen : before.after .expressionOpen = some (.expression around {})) :
    Lexes before e.print.toList rest around.context (Expression.Derives · e) := by
  have hclosed : BeginsWith endsBody (['}'] ++ rest) := ⟨'}', rest, rfl, rfl⟩
  have hrear : BeginsWith endsBody
      ((printAttributes e.attributes).toList ++ ['}'] ++ rest) := by
    rw [List.append_assoc]
    exact follows_attributes rfl hclosed
  obtain ⟨behind, hbehind, hcontent⟩ := h.content.lexes around hrear
  obtain ⟨final, hfinal, hattributes⟩ := lexes_attributes h.attributes hbehind
    (hclosed.mono isDelimiter_of_endsBody)
  have hinside := hcontent.andThen
    (hattributes.andThen (lexes_expressionClose hfinal.expressionClose))
  rw [Expression.toList_print]
  refine .braced hopen (h.content.beginsItem_print.append _) hinside ?_
  rintro opening _ hopening ⟨content, _, rfl, hcontent, rear, _, rfl, hrear, closing, rfl, hclosing⟩
  exact .intro hopening .nothing hcontent hrear .nothing hclosing

/-! ### Markup -/

namespace MarkupKind

/-- The sigil of markup of the kind. -/
def sigil : MarkupKind → Char
  | closing => '/'
  | opening | standalone => '#'

/-- The kind of the token that names markup of the kind. -/
def nameKind : MarkupKind → TokenKind
  | closing => .markupClose
  | opening | standalone => .markupOpen

/-- The text at the end of markup of the kind. -/
def ending : MarkupKind → List Char
  | standalone => ['/'] ++ ['}']
  | opening | closing => ['}']

theorem spells_name {kind : MarkupKind} {identifier : Identifier} (h : identifier.WellShaped)
    (hrest : BeginsWith isDelimiter rest) : kind.nameKind.Spells
      ([kind.sigil] ++ identifier.text.toList) identifier.text.toList rest := by
  cases kind <;> exact h.spells hrest

theorem after_name (kind : MarkupKind) : (Context.expression around {}).after kind.nameKind =
    some (.expression around (settled true true)) := by
  cases kind <;> rfl

theorem isDelimiter_ending (kind : MarkupKind) (rest : List Char) :
    BeginsWith isDelimiter (kind.ending ++ rest) := by
  cases kind <;> exact ⟨_, _, rfl, rfl⟩

theorem lexes_ending (kind : MarkupKind) (hbefore : before.TakesAttributes around true) :
    Lexes before kind.ending rest around.context (MarkupEnd kind.nameKind · kind) := by
  have hclose (rest : List Char) :=
    @lexes_expressionClose before around.context rest hbefore.expressionClose
  cases kind with
  | opening =>
    refine (hclose rest).mono ?_
    rintro _ ⟨closing, rfl, hclosing⟩
    exact .opening hclosing
  | closing =>
    refine (hclose rest).mono ?_
    rintro _ ⟨closing, rfl, hclosing⟩
    exact .closing hclosing
  | standalone =>
    have hspells : TokenKind.selfClose.Spells ['/'] "/".toList (['}'] ++ rest) := ⟨rfl, rfl, rfl⟩
    refine .cons hspells (hbefore.selfClose rfl) nofun (hclose rest) ?_
    rintro slash _ hslash _ ⟨closing, rfl, hclosing⟩
    exact .standalone hslash hclosing

end MarkupKind

theorem Markup.toList_print (m : Markup) : m.print.toList =
    ['{'] ++ ([m.kind.sigil] ++ m.identifier.text.toList ++ ((printOptions m.options).toList ++
      ((printAttributes m.attributes).toList ++ m.kind.ending))) := by
  obtain ⟨kind, identifier, options, attributes⟩ := m
  cases kind <;> simp [Markup.print, MarkupKind.sigil, MarkupKind.ending, String.toList_append]

/-- **Printed markup is lexed as markup**, whatever stands behind it. -/
theorem Markup.WellShaped.lexes {m : Markup} (h : m.WellShaped)
    (hopen : before.after .expressionOpen = some (.expression around {})) :
    Lexes before m.print.toList rest around.context (Markup.Derives · m) := by
  have hrear : BeginsWith isDelimiter
      ((printAttributes m.attributes).toList ++ m.kind.ending ++ rest) := by
    rw [List.append_assoc]
    exact follows_attributes rfl (m.kind.isDelimiter_ending rest)
  have hfront : BeginsWith isDelimiter ((printOptions m.options).toList ++
      ((printAttributes m.attributes).toList ++ m.kind.ending) ++ rest) := by
    rw [List.append_assoc]
    exact follows_options hrear
  obtain ⟨final, hfinal, hattributes⟩ := lexes_attributes h.attributes
    (Context.takesAttributes_expression true true) (m.kind.isDelimiter_ending rest)
  have hlater := (lexes_options h.options hrear).andThen
    (hattributes.andThen (m.kind.lexes_ending hfinal))
  have hname : Lexes (.expression around {}) ([m.kind.sigil] ++ m.identifier.text.toList ++
      ((printOptions m.options).toList ++ ((printAttributes m.attributes).toList ++ m.kind.ending)))
      rest around.context fun tokens => ∃ name front rear ending,
        tokens = name :: (front ++ (rear ++ ending)) ∧ name.value = m.identifier.text ∧
          NamedOptions front m.options ∧ Attributes rear m.attributes ∧
            MarkupEnd name.kind ending m.kind := by
    refine .cons (MarkupKind.spells_name h.identifier hfront) m.kind.after_name nofun hlater ?_
    rintro name _ hkind hvalue ⟨front, _, rfl, hoptions, rear, ending, rfl, hattributes, hending⟩
    rw [← hkind] at hending
    exact ⟨name, front, rear, ending, rfl, hvalue, hoptions, hattributes, hending⟩
  rw [Markup.toList_print]
  refine .braced hopen ?_ hname ?_
  · cases m.kind <;> exact ⟨_, _, rfl, rfl⟩
  · rintro opening _ hopening ⟨name, front, rear, ending, rfl, hvalue, hoptions, hattributes,
      hending⟩
    have hderives := Markup.Derives.intro hopening .nothing hoptions hattributes .nothing hending
    rwa [hvalue, h.identifier.ofText_text] at hderives

end MessageFormat
