import MessageFormat.Proofs.Printing

/-!
# Printing and parsing

A message is printed as a text from which it is parsed again, just if it is well shaped.  What is
parsed from a source is well shaped, so that its text is a canonical one for the source.

* `Message.WellShaped.parse_print` : a well-shaped message is parsed from its text;
* `Message.wellShaped_iff` : and no other message is;
* `parse_print_of_parse` : the text of a parsed message means the same as its source.
-/

namespace MessageFormat

open Scanner

variable {around : Surroundings} {rest : List Char}

/-! ### Patterns -/

theorem Surroundings.after_expressionOpen (around : Surroundings) :
    around.context.after .expressionOpen = some (.expression around {}) := by
  cases around <;> rfl

namespace Pattern

theorem toList_print_cons (part : PatternPart) (pattern : Pattern) :
    (Pattern.print (part :: pattern)).toList =
      part.print.toList ++ (Pattern.print pattern).toList := by
  simp [Pattern.print, String.toList_append]

theorem WellShaped.tail {part : PatternPart} {pattern : Pattern}
    (h : Pattern.WellShaped (part :: pattern)) : Pattern.WellShaped pattern :=
  ⟨(List.forall_mem_cons.1 h.parts).2, (List.isChain_cons.1 h.separated).2⟩

/-- Behind text, there is a placeholder or what stands behind the pattern. -/
theorem WellShaped.stopsAt_print {part : PatternPart} {pattern : Pattern}
    (h : Pattern.WellShaped (part :: pattern)) (htext : part.isText = true)
    (hrest : StopsAt isNoBrace rest) :
    StopsAt isNoBrace ((Pattern.print pattern).toList ++ rest) := by
  cases pattern with
  | nil => exact hrest
  | cons next pattern =>
    have hnext : next.isText = false := (List.isChain_cons_cons.1 h.separated).1 htext
    rw [toList_print_cons]
    cases next with
    | text _ => cases hnext
    | expression e =>
      rw [PatternPart.print, Expression.toList_print]
      exact stopsAt_cons.2 rfl
    | markup m =>
      rw [PatternPart.print, Markup.toList_print]
      exact stopsAt_cons.2 rfl

end Pattern

theorem spells_escapeText {text : String} (hne : text ≠ "") (hnul : '\x00' ∉ text.toList)
    (hrest : StopsAt isNoBrace rest) :
    TokenKind.text.Spells (escapeText text).toList text.toList rest := by
  have hdecodes := decodes_escapeText hnul
  refine ⟨?_, hdecodes, hrest⟩
  intro hempty
  rw [hempty] at hdecodes
  generalize htext : text.toList = characters at hdecodes
  cases hdecodes
  exact hne (String.toList_eq_nil_iff.1 htext)

/-- **A printed pattern is lexed as one**, in a simple message and between double braces. -/
theorem Pattern.WellShaped.lexes {pattern : Pattern} (h : Pattern.WellShaped pattern)
    (htext : around.context.after .text = some around.context)
    (hrest : StopsAt isNoBrace rest) :
    Lexes around.context (Pattern.print pattern).toList rest around.context
      (Pattern.Derives · pattern) := by
  induction pattern with
  | nil => exact .nil .nil
  | cons part pattern ih =>
    have hpart : Lexes around.context part.print.toList
        ((Pattern.print pattern).toList ++ rest) around.context (PatternPart.Derives · part) := by
      cases part with
      | text text =>
        obtain ⟨hne, hnul⟩ : text ≠ "" ∧ '\x00' ∉ text.toList := by
          cases h.parts _ List.mem_cons_self with
          | text hne hnul => exact ⟨hne, hnul⟩
        refine .token (spells_escapeText hne hnul (h.stopsAt_print rfl hrest)) htext nofun ?_
        intro token hkind hvalue
        rw [← hvalue]
        exact .text hkind
      | expression e =>
        cases h.parts _ List.mem_cons_self with
        | expression he =>
          exact (he.lexes around.after_expressionOpen).mono fun _ h => .expression h
      | markup m =>
        cases h.parts _ List.mem_cons_self with
        | markup hm => exact (hm.lexes around.after_expressionOpen).mono fun _ h => .markup h
    rw [Pattern.toList_print_cons]
    exact hpart.append (ih h.tail) fun _ _ h later => .cons h later

theorem Pattern.toList_printQuoted (pattern : Pattern) : (Pattern.printQuoted pattern).toList =
    ['{', '{'] ++ ((Pattern.print pattern).toList ++ ['}', '}']) := by
  simp [Pattern.printQuoted, String.toList_append]

/-- A text that is lexed as a pattern is lexed as a quoted one between double braces. -/
theorem Lexes.betweenBraces {text : List Char} {pattern : Pattern}
    (h : Lexes .quotedPattern text (['}', '}'] ++ rest) .quotedPattern
      (Pattern.Derives · pattern)) :
    Lexes .header (['{', '{'] ++ (text ++ ['}', '}'])) rest .header
      (Pattern.DerivesQuoted · pattern) := by
  have hopening (rest : List Char) :
      TokenKind.patternOpen.Spells ['{', '{'] "\x7b\x7b".toList rest := ⟨rfl, rfl⟩
  have hclosing : TokenKind.patternClose.Spells ['}', '}'] "\x7d\x7d".toList rest := ⟨rfl, rfl⟩
  have hend : Lexes .quotedPattern ['}', '}'] rest .header fun tokens =>
      ∃ closing : Token, tokens = [closing] ∧ closing.kind = .patternClose :=
    .token hclosing rfl nofun fun closing hkind _ => ⟨closing, rfl, hkind⟩
  refine .cons (hopening _) rfl nofun (h.andThen hend) ?_
  rintro opening _ hopening _ ⟨tokens, _, rfl, h, closing, rfl, hclosing⟩
  exact .intro hopening h hclosing

theorem Pattern.WellShaped.lexes_quoted {pattern : Pattern} (h : Pattern.WellShaped pattern) :
    Lexes .header (Pattern.printQuoted pattern).toList rest .header
      (Pattern.DerivesQuoted · pattern) := by
  have hpattern : Lexes .quotedPattern (Pattern.print pattern).toList (['}', '}'] ++ rest)
      .quotedPattern (Pattern.Derives · pattern) :=
    @Pattern.WellShaped.lexes .quotedPattern _ pattern h rfl (stopsAt_cons.2 rfl)
  rw [Pattern.toList_printQuoted]
  exact hpattern.betweenBraces

/-! ### Matchers -/

theorem Separator.gap {tokens : List Token} (h : Separator tokens) : Gap tokens := by
  cases h with
  | space h =>
    rw [Token.isSeparator, Bool.and_eq_true] at h
    exact .blank h.1

theorem Behind.gap {α : Type} {item : List Token → α → Prop} {tokens : List Token} {a : α}
    (h : Behind Separator item tokens a) : Behind Gap item tokens a := by
  cases h with
  | intro hseparator h => exact .intro hseparator.gap h

/-- Keys with separators behind them are keys with separators between them and a gap at the end. -/
theorem Variant.derives_of_keys {front tokens : List Token} {keys : List VariantKey}
    {pattern : Pattern} (hkeys : Repeated (Before VariantKey.Derives Separator) front keys)
    (hne : keys ≠ []) (hpattern : Pattern.DerivesQuoted tokens pattern) :
    Variant.Derives (front ++ tokens) ⟨keys, pattern⟩ := by
  cases hkeys with
  | nil => exact absurd rfl hne
  | cons hkey hlater =>
    cases hkey with
    | @intro first rear key hkey hrear =>
      obtain ⟨further, gap, hfurther, hgap, heq⟩ := repeated_behind_of_before hrear hlater
      rw [List.append_assoc first, heq, List.append_assoc, List.append_assoc]
      exact .intro hkey hfurther hgap.gap hpattern

theorem Variant.toList_print (v : Variant) : v.print.toList =
    v.keys.flatMap (fun key => key.print.toList ++ [' ']) ++
      (Pattern.printQuoted v.pattern).toList := by
  rw [Variant.print, String.toList_append, String.toList_join, List.flatMap_map]
  simp only [String.toList_append]
  rfl

theorem Variant.WellShaped.stopsAt_blank {v : Variant} (h : v.WellShaped) :
    StopsAt isBlank (v.print.toList ++ rest) := by
  obtain ⟨keys, pattern⟩ := v
  cases keys with
  | nil => exact absurd rfl h.keys_ne_nil
  | cons key keys =>
    have hkey := (h.keys key List.mem_cons_self).beginsItem_print
    rw [Variant.toList_print]
    exact ((hkey.append _).append _).append _ |>.stopsAt_blank

theorem Variant.WellShaped.lexes {v : Variant} (h : v.WellShaped) :
    Lexes .header v.print.toList rest .header (Variant.Derives · v) := by
  have hkeys : Lexes .header (v.keys.flatMap fun key => key.print.toList ++ [' '])
      ((Pattern.printQuoted v.pattern).toList ++ rest) .header
      (Repeated (Before VariantKey.Derives Separator) · v.keys) := by
    refine .repeated (StopsAt isBlank) (fun key hkey rest hrest => ?_) ?_ ?_
    · exact ((h.keys key hkey).lexes ⟨' ', rest, rfl, rfl⟩).append (.space rfl hrest)
        fun _ _ h hseparator => .intro h hseparator
    · intro key hkey rest
      exact ((h.keys key hkey).beginsItem_print.append _).stopsAt_blank
    · rw [Pattern.toList_printQuoted]
      exact stopsAt_cons.2 rfl
  rw [Variant.toList_print]
  exact hkeys.append h.pattern.lexes_quoted fun _ _ hkeys hpattern =>
    Variant.derives_of_keys hkeys h.keys_ne_nil hpattern

/-- The text of expressions, each with a space before it. -/
def printExpressions (expressions : List Expression) : List Char :=
  expressions.flatMap fun e => [' '] ++ e.print.toList

theorem endsBody_printExpressions {expressions : List Expression} (hne : expressions ≠ []) :
    BeginsWith endsBody (printExpressions expressions ++ rest) := by
  cases expressions with
  | nil => exact absurd rfl hne
  | cons e expressions => exact ⟨' ', _, rfl, rfl⟩

/-- An expression behind a space, in the header of a message or behind a reserved body. -/
theorem Expression.WellShaped.lexes_behindSpace {before : Context} {e : Expression}
    (h : e.WellShaped) (hblank : before.after .blank = some before)
    (hopen : before.after .expressionOpen = some (.expression .header {})) :
    Lexes before ([' '] ++ e.print.toList) rest .header (Behind Gap Expression.Derives · e) := by
  have hstop : StopsAt isBlank (e.print.toList ++ rest) := by
    rw [Expression.toList_print]
    exact stopsAt_cons.2 rfl
  exact (Lexes.behindSpace hblank hstop (h.lexes hopen)).mono fun _ h => h.gap

theorem lexes_printExpressions {expressions : List Expression}
    (h : ∀ e ∈ expressions, e.WellShaped) :
    Lexes .header (printExpressions expressions) rest .header
      (Repeated (Behind Gap Expression.Derives) · expressions) :=
  .repeated (fun _ => True) (fun e he _ _ => (h e he).lexes_behindSpace rfl rfl)
    (fun _ _ _ => trivial) trivial

theorem lexes_printVariants {variants : List Variant} (h : ∀ v ∈ variants, v.WellShaped) :
    Lexes .header (variants.flatMap fun v => [' '] ++ v.print.toList) rest .header
      (Repeated (Behind Gap Variant.Derives) · variants) := by
  refine .repeated (fun _ => True) (fun v hv _ _ => ?_) (fun _ _ _ => trivial) trivial
  exact (Lexes.behindSpace rfl (h v hv).stopsAt_blank (h v hv).lexes).mono fun _ h => h.gap

theorem Matcher.toList_print (m : Matcher) : m.print.toList =
    ['.'] ++ "match".toList ++ (printExpressions m.selectors ++
      m.variants.flatMap fun v => [' '] ++ v.print.toList) := by
  simp [Matcher.print, printExpressions, String.toList_append, String.toList_join,
    List.flatMap_map]

/-- A keyword before a space. -/
theorem spellsName_keyword {keyword : String} (h : isName keyword = true)
    (hrest : BeginsWith endsBody rest) :
    SpellsName ['.'] (['.'] ++ keyword.toList) keyword.toList rest :=
  spellsName h (hrest.mono isDelimiter_of_endsBody)

theorem Matcher.WellShaped.lexes {m : Matcher} (h : m.WellShaped) :
    Lexes .header m.print.toList rest .header (Matcher.Derives · m) := by
  have hvariants : Lexes .header (m.variants.flatMap fun v => [' '] ++ v.print.toList) rest
      .header (Repeated (Behind Gap Variant.Derives) · m.variants) :=
    lexes_printVariants h.variants
  have hlater := (lexes_printExpressions h.selectors).andThen hvariants
  have hspells : TokenKind.matchKeyword.Spells (['.'] ++ "match".toList) "match".toList
      (printExpressions m.selectors ++ (m.variants.flatMap fun v => [' '] ++ v.print.toList) ++
        rest) := by
    refine ⟨spellsName_keyword (by decide) ?_, rfl⟩
    rw [List.append_assoc]
    exact endsBody_printExpressions h.selectors_ne_nil
  rw [Matcher.toList_print]
  refine .cons hspells rfl nofun hlater ?_
  rintro keyword _ hkeyword _ ⟨front, rear, rfl, hselectors, hvariants⟩
  exact .intro hkeyword hselectors h.selectors_ne_nil hvariants h.variants_ne_nil

/-! ### Declarations -/

theorem lexes_equals {after : Context} {text : List Char} {P Q : List Token → Prop}
    (later : Lexes .header text rest after P)
    (hQ : ∀ equals tokens, equals.kind = .equals → P tokens → Q (equals :: tokens)) :
    Lexes .header (['='] ++ text) rest after Q := by
  have hspells : TokenKind.equals.Spells ['='] "=".toList (text ++ rest) := ⟨rfl, rfl⟩
  exact .cons hspells rfl nofun later fun equals tokens hkind _ h => hQ equals tokens hkind h

theorem lexes_input {e : Expression} {name : String} (h : e.WellShaped)
    (hoperand : e.operand = some (.variableName name)) :
    Lexes .header (Declaration.input e).print.toList rest .header
      (Declaration.Derives · (.input e)) := by
  have hprint : (Declaration.input e).print.toList =
      ['.'] ++ "input".toList ++ ([' '] ++ e.print.toList) := by
    rw [Declaration.print, String.toList_append]
    rfl
  have hspells : TokenKind.inputKeyword.Spells (['.'] ++ "input".toList) "input".toList
      ([' '] ++ e.print.toList ++ rest) := ⟨spellsName_keyword (by decide) ⟨' ', _, rfl, rfl⟩, rfl⟩
  rw [hprint]
  refine .cons hspells rfl nofun (h.lexes_behindSpace rfl rfl) ?_
  rintro keyword _ hkeyword _ ⟨hgap, hderives⟩
  exact .input hkeyword hgap hderives hoperand

theorem lexes_assign {name : String} {e : Expression} (hname : isName name = true)
    (h : e.WellShaped) :
    Lexes .header (Declaration.assign name e).print.toList rest .header
      (Declaration.Derives · (.assign name e)) := by
  have hprint : (Declaration.assign name e).print.toList = ['.'] ++ "local".toList ++
      ([' '] ++ (("$" ++ name).toList ++ ([' '] ++ (['='] ++ ([' '] ++ e.print.toList))))) := by
    simp [Declaration.print, String.toList_append]
  have hspells (rest : List Char) (hrest : BeginsWith endsBody rest) :
      TokenKind.localKeyword.Spells (['.'] ++ "local".toList) "local".toList rest :=
    ⟨spellsName_keyword (by decide) hrest, rfl⟩
  have hvalue : Lexes .header (['='] ++ ([' '] ++ e.print.toList)) rest .header fun tokens =>
      ∃ equals later, tokens = equals :: later ∧ equals.kind = .equals ∧
        Behind Gap Expression.Derives later e :=
    lexes_equals (h.lexes_behindSpace rfl rfl) fun equals later hkind h =>
      ⟨equals, later, rfl, hkind, h⟩
  have hvariable : Lexes .header ("$" ++ name).toList
      ([' '] ++ (['='] ++ ([' '] ++ e.print.toList)) ++ rest) .header fun tokens =>
        ∃ token : Token, tokens = [token] ∧ token.kind = .variableName ∧ token.value = name :=
    lexes_variableName hname rfl ⟨' ', _, rfl, rfl⟩ fun token hkind hvalue =>
      ⟨token, rfl, hkind, hvalue⟩
  have hstop : StopsAt isBlank (("$" ++ name).toList ++
      ([' '] ++ (['='] ++ ([' '] ++ e.print.toList))) ++ rest) := by
    rw [String.toList_append]
    exact stopsAt_cons.2 rfl
  have hlater := (Lexes.space rfl hstop).andThen
    (hvariable.andThen ((Lexes.space rfl (stopsAt_cons.2 rfl)).andThen hvalue))
  rw [hprint]
  refine .cons (hspells _ ⟨' ', _, rfl, rfl⟩) rfl nofun hlater ?_
  rintro keyword _ hkeyword _ ⟨separator, _, rfl, hseparator, _, _, rfl,
    ⟨token, rfl, hkind, rfl⟩, before, _, rfl, hbefore, equals, _, rfl, hequals, hgap, hderives⟩
  exact .assign hkeyword hseparator hkind hbefore.gap hequals hgap hderives

/-- The text of the body of a reserved statement, with the space before it. -/
def printStatementBody (body : List BodyPiece) : List Char :=
  if body.isEmpty then [] else [' '] ++ (printBody body).toList

theorem toList_reserved (statement : ReservedStatement) :
    (Declaration.reserved statement).print.toList = ['.'] ++ statement.keyword.toList ++
      (printStatementBody statement.body ++ printExpressions statement.expressions) := by
  obtain ⟨keyword, body, expressions⟩ := statement
  cases body <;> simp [Declaration.print, printStatementBody, printExpressions,
    String.toList_append, String.toList_join, List.flatMap_map]

theorem lexes_statementBody {body : List BodyPiece} (h : BodyShaped body)
    (hrest : BeginsWith endsBody rest) :
    Lexes .reservedStatement (printStatementBody body) rest .reservedStatement
      (ReservedBody · body) := by
  cases body with
  | nil => exact .nil .nothing
  | cons piece pieces =>
    have hbody : Lexes .reservedStatement (printBody (piece :: pieces)).toList rest
        .reservedStatement fun tokens => ∀ gap, Gap gap → ReservedBody (gap ++ tokens) _ :=
      h.lexes (by nofun) (fun _ => Context.afterReserved_of_isOfBody) hrest
    exact (Lexes.space rfl (h.stopsAt_blank (by nofun))).append hbody
      fun separator _ hseparator h => h separator hseparator.gap

/-- The first expression ends the body of the statement, and the others stand in the header. -/
theorem lexes_statementExpressions {expressions : List Expression} (hne : expressions ≠ [])
    (h : ∀ e ∈ expressions, e.WellShaped) :
    Lexes .reservedStatement (printExpressions expressions) rest .header
      (Repeated (Behind Gap Expression.Derives) · expressions) := by
  cases expressions with
  | nil => exact absurd rfl hne
  | cons e expressions =>
    rw [List.forall_mem_cons] at h
    rw [printExpressions, List.flatMap_cons]
    exact (h.1.lexes_behindSpace rfl rfl).append (lexes_printExpressions h.2)
      fun _ _ h later => .cons h later

theorem lexes_reserved {statement : ReservedStatement}
    (hkeyword : IsReservedKeyword statement.keyword) (hbody : BodyShaped statement.body)
    (hne : statement.expressions ≠ []) (h : ∀ e ∈ statement.expressions, e.WellShaped) :
    Lexes .header (Declaration.reserved statement).print.toList rest .header
      (Declaration.Derives · (.reserved statement)) := by
  have hexpressions : BeginsWith endsBody (printExpressions statement.expressions ++ rest) :=
    endsBody_printExpressions hne
  have hfollows : BeginsWith endsBody (printStatementBody statement.body ++
      printExpressions statement.expressions ++ rest) := by
    rw [List.append_assoc, printStatementBody]
    split
    · exact hexpressions
    · exact ⟨' ', _, rfl, rfl⟩
  have hspells : TokenKind.reservedKeyword.Spells (['.'] ++ statement.keyword.toList)
      statement.keyword.toList (printStatementBody statement.body ++
        printExpressions statement.expressions ++ rest) :=
    ⟨spellsName_keyword hkeyword.name hfollows,
      fun hmem => hkeyword.not_mem (toList_mem_keywords.1 hmem)⟩
  have hlater := (lexes_statementBody hbody hexpressions).andThen
    (lexes_statementExpressions hne h)
  rw [toList_reserved]
  refine .cons hspells rfl nofun hlater ?_
  rintro keyword _ hkind hvalue ⟨front, rear, rfl, hbody, hexpressions⟩
  have hderives := Declaration.Derives.reserved hkind hbody hexpressions hne
  rwa [hvalue] at hderives

theorem Declaration.WellShaped.lexes {d : Declaration} (h : d.WellShaped) :
    Lexes .header d.print.toList rest .header (Declaration.Derives · d) := by
  cases h with
  | input h hoperand => exact lexes_input h hoperand
  | assign hname h => exact lexes_assign hname h
  | reserved hkeyword hbody hne h => exact lexes_reserved hkeyword hbody hne h

theorem Declaration.exists_print (d : Declaration) :
    ∃ later, d.print.toList = '.' :: later := by
  cases d with
  | input e =>
    rw [Declaration.print, String.toList_append]
    exact ⟨_, rfl⟩
  | assign name e => exact ⟨_, by simp [Declaration.print, String.toList_append]; rfl⟩
  | reserved statement =>
    rw [toList_reserved]
    exact ⟨_, rfl⟩

/-! ### Messages -/

theorem MessageBody.WellShaped.lexes {body : MessageBody} (h : body.WellShaped) :
    Lexes .header body.print.toList rest .header (MessageBody.Derives · body) := by
  cases h with
  | pattern h => exact h.lexes_quoted.mono fun _ h => .pattern h
  | matcher h => exact h.lexes.mono fun _ h => .matcher h

/-- The body of a message begins as a complex message does. -/
theorem MessageBody.exists_print (body : MessageBody) :
    (∃ later, body.print.toList = '.' :: later) ∨
      ∃ later, body.print.toList = '{' :: '{' :: later := by
  cases body with
  | pattern p =>
    rw [MessageBody.print, Pattern.toList_printQuoted]
    exact .inr ⟨_, rfl⟩
  | matcher m =>
    rw [MessageBody.print, Matcher.toList_print]
    exact .inl ⟨_, rfl⟩

theorem Message.toList_print_complex (declarations : List Declaration) (body : MessageBody) :
    (Message.complex declarations body).print.toList =
      declarations.flatMap (fun d => d.print.toList ++ [' ']) ++ body.print.toList := by
  rw [Message.print, String.toList_append, String.toList_join, List.flatMap_map]
  simp only [String.toList_append]
  rfl

theorem lexes_complex {declarations : List Declaration} {body : MessageBody}
    (hdeclarations : ∀ d ∈ declarations, d.WellShaped) (hbody : body.WellShaped) :
    Lexes .header (Message.complex declarations body).print.toList [] .header
      (Message.DerivesInner · (.complex declarations body)) := by
  have hfront : Lexes .header (declarations.flatMap fun d => d.print.toList ++ [' '])
      (body.print.toList ++ []) .header
      (Repeated (Before Declaration.Derives Gap) · declarations) := by
    -- neither a declaration nor a body begins with a blank, which the space before it would take
    refine .repeated (StopsAt isBlank) (fun d hd rest hrest => ?_) (fun d _ rest => ?_) ?_
    · exact (hdeclarations d hd).lexes.append (.space rfl hrest) fun _ _ h hseparator =>
        .intro h hseparator.gap
    · obtain ⟨later, hprint⟩ := d.exists_print
      rw [hprint]
      exact stopsAt_cons.2 rfl
    · rcases body.exists_print with ⟨later, hprint⟩ | ⟨later, hprint⟩
      all_goals
        rw [hprint]
        exact stopsAt_cons.2 rfl
  rw [Message.toList_print_complex]
  refine hfront.append hbody.lexes fun front tokens hdeclarations hbody => ?_
  have hderives := Message.DerivesInner.complex .nothing hdeclarations hbody .nothing
  rwa [List.nil_append, List.append_nil] at hderives

theorem beginsComplex_complex (declarations : List Declaration) (body : MessageBody) :
    Context.beginsComplex (Message.complex declarations body).print.toList = true := by
  rw [Message.toList_print_complex]
  cases declarations with
  | nil =>
    rcases body.exists_print with ⟨later, hprint⟩ | ⟨later, hprint⟩
    all_goals
      rw [hprint]
      rfl
  | cons d declarations =>
    obtain ⟨later, hprint⟩ := d.exists_print
    rw [List.flatMap_cons, hprint]
    rfl

theorem beginsComplex_cons_blank {c : Char} (hc : isBlank c = true) (rest : List Char) :
    Context.beginsComplex (c :: rest) = Context.beginsComplex rest := by
  rw [Context.beginsComplex, List.dropWhile_cons_of_pos hc]
  rfl

theorem not_beginsComplex_cons {c : Char} {rest : List Char} (hc : isBlank c = false)
    (hpoint : c ≠ '.') (hbrace : c = '{' → rest.head? ≠ some '{') :
    Context.beginsComplex (c :: rest) = false := by
  rw [Context.beginsComplex, List.dropWhile_cons_of_neg (by simp [hc])]
  split
  · rename_i heq
    exact absurd (List.cons.inj heq).1 hpoint
  · rename_i heq
    obtain ⟨hopen, hrest⟩ := List.cons.inj heq
    exact absurd (by rw [hrest]; rfl) (hbrace hopen)
  · rfl

/-- Text that does not begin with a point leaves it to what follows whether a complex message
begins. -/
theorem not_beginsComplex_escape {text rest : List Char} (hpoint : beginsWithPoint text = false)
    (hrest : Context.beginsComplex rest = false) :
    Context.beginsComplex ((text.flatMap fun c =>
      if c == '\\' || c == '{' || c == '}' then ['\\', c] else [c]) ++ rest) = false := by
  induction text with
  | nil => exact hrest
  | cons c text ih =>
    rw [List.flatMap_cons, List.append_assoc]
    by_cases hblank : isBlank c = true
    · rw [beginsWithPoint, List.dropWhile_cons_of_pos hblank] at hpoint
      have hplain : ¬ (c == '\\' || c == '{' || c == '}') = true := by
        have hother : ∀ d ∈ ['\\', '{', '}'], (c == d) = false :=
          forall_beq_false_of hblank (by decide)
        simp only [List.forall_mem_cons] at hother
        simp only [hother, Bool.or_self, Bool.false_eq_true, not_false_eq_true]
      rw [if_neg hplain]
      exact (beginsComplex_cons_blank hblank _).trans (ih hpoint)
    · rw [beginsWithPoint, List.dropWhile_cons_of_neg hblank] at hpoint
      -- a brace is behind a backslash here, and a point is ruled out
      split
      · exact not_beginsComplex_cons (by decide) (by decide) fun h => absurd h (by decide)
      · rename_i hplain
        simp only [Bool.or_eq_true, beq_iff_eq, not_or] at hplain
        have hpoint : c ≠ '.' := by simpa using hpoint
        exact not_beginsComplex_cons (Bool.not_eq_true _ ▸ hblank) hpoint fun h =>
          absurd h hplain.1.2

theorem not_beginsComplex_braced {text : List Char} (h : BeginsWith beginsItem text) :
    Context.beginsComplex (['{'] ++ text) = false := by
  refine not_beginsComplex_cons (by decide) (by decide) fun _ => ?_
  rw [← List.append_nil text]
  exact h.head?_ne_brace

/-- The text of a simple message does not begin as a complex one. -/
theorem Pattern.WellShaped.not_beginsComplex {pattern : Pattern} (h : Pattern.WellShaped pattern)
    (hpoint : Pattern.beginsWithPoint pattern = false) :
    Context.beginsComplex (Pattern.print pattern).toList = false := by
  induction pattern with
  | nil => rfl
  | cons part pattern ih =>
    rw [Pattern.toList_print_cons]
    cases h.parts part List.mem_cons_self with
    | @text text _ _ =>
      rw [PatternPart.print, escapeText, toList_escape]
      refine not_beginsComplex_escape hpoint (ih h.tail ?_)
      -- behind text there is a placeholder, which does not begin with a point
      cases pattern with
      | nil => rfl
      | cons next pattern =>
        have hnext : next.isText = false := (List.isChain_cons_cons.1 h.separated).1 rfl
        cases next with
        | text _ => cases hnext
        | expression _ => rfl
        | markup _ => rfl
    | expression he =>
      rw [PatternPart.print, Expression.toList_print, List.append_assoc]
      exact not_beginsComplex_braced ((he.content.beginsItem_print.append _).append _)
    | @markup m _ =>
      rw [PatternPart.print, Markup.toList_print, List.append_assoc]
      refine not_beginsComplex_braced ?_
      cases m.kind <;> exact ⟨_, _, rfl, rfl⟩

/-- A well-shaped message is lexed from its text, in the context that the text begins with. -/
theorem Message.WellShaped.lexes {m : Message} (h : m.WellShaped) : ∃ context : Context,
    Lexes (if Context.beginsComplex m.print.toList then .header else .message) m.print.toList []
      context (Message.DerivesInner · m) := by
  cases h with
  | @simple p h hpoint =>
    have hprint : (Message.simple p).print = Pattern.print p := by
      rw [Message.print, hpoint]
      rfl
    have hpattern : Lexes .message (Pattern.print p).toList [] .message (Pattern.Derives · p) :=
      @Pattern.WellShaped.lexes .message [] p h rfl stopsAt_nil
    rw [hprint, h.not_beginsComplex hpoint]
    exact ⟨_, hpattern.mono fun _ h => .simple h⟩
  | complex hdeclarations hbody =>
    rw [beginsComplex_complex]
    exact ⟨_, lexes_complex hdeclarations hbody⟩

/-! ### Round trips -/

/-- The tokens of a source are those of a complex message or of a simple one. -/
theorem tokenizeAll_eq (source : String) : tokenizeAll source =
    (Cursor.mk (if Context.beginsComplex source.toList then .header else .message) .start
      source.toList).tokens := by
  rw [tokenizeAll, Cursor.ofSource]
  cases source.toList with
  | nil =>
    refine Cursor.tokens_eq_of_next rfl fun h => ?_
    cases h
  | cons c rest =>
    generalize hcontext : (if Context.beginsComplex (c :: rest) then Context.header else .message) =
      context
    -- the first lexeme is the same in either context, and brings with it where the next one stands
    have hstart := Context.scan_start c rest
    rw [hcontext] at hstart
    cases hscan : context.scan c rest with
    | mk taken behind result =>
      rw [hscan] at hstart
      cases result with
      | error fault =>
        refine Cursor.tokens_eq_of_next ?_ fun h => ?_
        · rw [Cursor.next_of_fault hstart, Cursor.next_of_fault hscan]
        · rw [Cursor.next_of_fault hstart] at h
          cases h
      | ok lexeme =>
        refine Cursor.tokens_eq_of_next ?_ fun _ => ?_
        all_goals rw [Cursor.next_of_scan hstart, Cursor.next_of_scan hscan]

/-- A path over all of a source has its tokens, and none of them is a fault. -/
theorem tokenize_of_path {source : String} {tokens : List Token} {context : Context}
    {position : Position} (path : Cursor.Path
      ⟨if Context.beginsComplex source.toList then .header else .message, .start, source.toList⟩
      tokens ⟨context, position, []⟩) :
    tokenize source = .ok (tokens ++ [⟨.endOfInput, "", .point position⟩]) := by
  have htokens : tokenizeAll source = tokens ++ [⟨.endOfInput, "", .point position⟩] := by
    rw [tokenizeAll_eq, Cursor.tokens_of_path path, Cursor.tokens_of_isLast rfl]
    rfl
  refine tokenize_eq_ok_iff.2 ⟨htokens.symm, fun token hmem => ?_⟩
  rw [htokens, List.mem_append, List.mem_singleton] at hmem
  -- a path goes no further than to a fault
  rcases hmem with hmem | rfl
  · intro hkind
    have hlast := path.not_isLast token hmem
    rw [Cursor.isLast, hkind] at hlast
    cases hlast
  · rintro ⟨⟩

/-- A source is parsed as what the tokens on a path over all of it derive. -/
theorem parse_eq_ok_iff_path {source : String} {m : Message} :
    parse source = .ok m ↔ ∃ tokens stop,
      Cursor.Path ⟨if Context.beginsComplex source.toList then .header else .message, .start,
        source.toList⟩ tokens stop ∧ stop.rest = [] ∧ Message.DerivesInner tokens m := by
  rw [parse_eq_ok_iff_derivesInner]
  constructor
  · rintro ⟨tokens, last, htokenize, hlast, hderives⟩
    have htokens := (tokenize_eq_ok_iff.1 htokenize).1
    obtain ⟨others, stop, path, hstop, hothers⟩ := Cursor.exists_path
      ⟨if Context.beginsComplex source.toList then .header else .message, .start, source.toList⟩
    rw [tokenizeAll_eq, hothers] at htokens
    obtain ⟨rfl, hnext⟩ := List.append_inj' htokens rfl
    rcases Cursor.next_last hstop with ⟨hrest, -⟩ | ⟨_, _, _, -, hfault, -⟩
    · exact ⟨tokens, stop, path, hrest, hderives⟩
    · rw [List.singleton_inj.1 hnext, hfault] at hlast
      cases hlast
  · rintro ⟨tokens, ⟨context, position, rest⟩, path, rfl, hderives⟩
    exact ⟨tokens, _, tokenize_of_path path, rfl, hderives⟩

/-- **A well-shaped message is parsed from its text.** -/
theorem Message.WellShaped.parse_print {m : Message} (h : m.WellShaped) :
    parse m.print = .ok m := by
  obtain ⟨context, hlexes⟩ := h.lexes
  obtain ⟨tokens, path, hderives⟩ := hlexes .start
  rw [List.append_nil] at path
  exact parse_eq_ok_iff_path.2 ⟨tokens, _, path, rfl, hderives⟩

/-- Only a well-shaped message is parsed from its text. -/
theorem Message.wellShaped_iff {m : Message} : m.WellShaped ↔ parse m.print = .ok m :=
  ⟨fun h => h.parse_print, wellShaped_of_parse⟩

/-- The canonical text of a source: that of the message which it spells out. -/
def canonicalText (source : String) : Except Error String := return (← parse source).print

/-- **The text of a parsed message means the same as its source.**  It is the canonical text of
itself, so that a canonical text is not changed any more. -/
theorem parse_print_of_parse {source : String} {m : Message} (h : parse source = .ok m) :
    parse m.print = .ok m ∧ canonicalText m.print = .ok m.print ∧
      (canonicalText source >>= canonicalText) = canonicalText source := by
  have hparse := (wellShaped_of_parse h).parse_print
  have hfixed : canonicalText m.print = .ok m.print := by
    rw [canonicalText, hparse]
    rfl
  refine ⟨hparse, hfixed, ?_⟩
  have hsource : canonicalText source = .ok m.print := by
    rw [canonicalText, h]
    rfl
  rw [hsource]
  exact hfixed

/-- A matcher with more blanks than its text has, and with a number, an escape, a reserved body and
a text between bars in it. -/
def matcherSource : String :=
  ".input \x7b$n :number a  =  1.50\x7d\n.match \x7b$n\x7d " ++
    "1 \x7b\x7b\\\x7b\x7d\x7d * \x7b\x7b\x7b^ x  |y| \x7d\x7d\x7d"

theorem exists_parse_print_of_matcher :
    ∃ m : Message, parse matcherSource = .ok m ∧ parse m.print = .ok m := by
  have hcanonical : (canonicalText matcherSource).toOption.isSome = true := by decide +kernel
  cases h : parse matcherSource with
  | error e =>
    rw [canonicalText, h] at hcanonical
    cases hcanonical
  | ok m => exact ⟨m, rfl, (parse_print_of_parse h).1⟩

end MessageFormat
