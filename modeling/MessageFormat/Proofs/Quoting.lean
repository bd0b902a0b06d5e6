import MessageFormat.Proofs.RoundTrip
import MessageFormat.Proofs.Words

/-!
# Quoted patterns

A pattern is the same in a simple message and between double braces, though a closing brace means
something else there: none of the two closing braces behind a quoted pattern can be taken for a part
of it.

* `TokenKind.spells_append_closing` : what closes a pattern ends all lexemes alike;
* `Inside.exists_after` : the contexts inside of a pattern are alike;
* `Inside.lexes_of_path` : a path inside of a pattern is one in other surroundings;
* `parse_quoted_iff` : a source is parsed as a pattern just if it is one between double braces.
-/

namespace MessageFormat

open Scanner

/-! ### Ahead of closing braces -/

theorem stopsAt_append_braces {p : Char → Bool} {rest : List Char} (hp : p '}' = false) :
    StopsAt p (rest ++ ['}', '}']) ↔ StopsAt p rest := by
  cases rest with
  | nil => exact iff_of_true (stopsAt_cons.2 hp) stopsAt_nil
  | cons c rest => rw [List.cons_append, stopsAt_cons, stopsAt_cons]

theorem qualifies_append_braces {rest : List Char} :
    Qualifies (rest ++ ['}', '}']) ↔ Qualifies rest := by
  constructor
  · rintro ⟨c, later, heq, hc⟩
    match rest, heq with
    | [], heq => cases heq
    | [_], heq =>
      -- a closing brace does not start a name
      cases heq
      cases hc
    | _ :: _ :: rest, heq =>
      cases heq
      exact ⟨_, rest, rfl, hc⟩
  · rintro ⟨c, later, rfl, hc⟩
    exact ⟨c, later ++ ['}', '}'], rfl, hc⟩

/-- Closing braces behind a text do not change how it may go on.  A slash at the end of it is an
exception, which a closing brace makes the end of markup. -/
theorem TokenKind.spells_append_braces {kind : TokenKind} {taken value rest : List Char}
    (h : kind = .selfClose → rest ≠ []) :
    kind.Spells taken value (rest ++ ['}', '}']) ↔ kind.Spells taken value rest := by
  have hname : StopsAt isNameChar (rest ++ ['}', '}']) ↔ StopsAt isNameChar rest :=
    stopsAt_append_braces (by decide)
  cases kind with
  | text =>
    simp only [Spells, SpellsText, stopsAt_append_braces (show isNoBrace '}' = false from rfl)]
  | reservedText =>
    simp only [Spells, SpellsText,
      stopsAt_append_braces (show goesOn isReservedChar '}' = false by decide)]
  | blank => simp only [Spells, stopsAt_append_braces (show isBlank '}' = false by decide)]
  | variableName | nameLiteral | inputKeyword | localKeyword | matchKeyword | reservedKeyword
  | numberLiteral =>
    simp only [Spells, SpellsName, hname]
  | functionName | markupOpen | markupClose | attributeName | optionName =>
    simp only [Spells, SpellsIdentifier, hname, qualifies_append_braces]
  | selfClose =>
    obtain ⟨c, later, rfl⟩ := List.exists_cons_of_ne_nil (h rfl)
    rfl
  | quotedLiteral | expressionOpen | expressionClose | patternOpen | patternClose | equals | catchAll
  | reservedSigil | privateSigil | endOfInput | fault => rfl

/-- The characters that close a pattern. -/
def Surroundings.closing : Surroundings → List Char
  | quotedPattern => ['}', '}']
  | message | header => []

theorem TokenKind.spells_append_closing {kind : TokenKind} {taken value rest : List Char}
    (h : kind = .selfClose → rest ≠ []) (around : Surroundings) :
    kind.Spells taken value (rest ++ around.closing) ↔ kind.Spells taken value rest := by
  cases around with
  | quotedPattern => exact spells_append_braces h
  | message | header => rw [Surroundings.closing, List.append_nil]

/-! ### Inside of a pattern -/

/-- A place inside of a pattern. -/
inductive Inside where
  /-- Between the parts of the pattern. -/
  | pattern
  /-- In an expression. -/
  | expression (state : ExpressionState)
  /-- In the body of a reserved directive. -/
  | reservedDirective (state : ExpressionState)

/-- The context at the place. -/
def Inside.context (around : Surroundings) : Inside → Context
  | pattern => around.context
  | expression state => .expression around state
  | reservedDirective state => .reservedDirective around state

/-- Whether a lexeme of the kind ends a part of a pattern. -/
def TokenKind.endsPart : TokenKind → Bool
  | text | expressionClose => true
  | _ => false

namespace Inside

variable {around other : Surroundings} {place : Inside} {kind : TokenKind}

/-- In an expression, the same lexemes may stand in any surroundings, and they lead to the same
places. -/
theorem exists_afterExpression {state : ExpressionState} {next : Context}
    (h : Context.afterExpression around state kind = some next) : ∃ behind : Inside,
      next = behind.context around ∧ (behind = .pattern ↔ kind.endsPart = true) ∧
        ∀ other, Context.afterExpression other state kind = some (behind.context other) := by
  cases kind with
  | expressionClose =>
    cases h
    exact ⟨.pattern, rfl, iff_of_true rfl rfl, fun _ => rfl⟩
  | blank | variableName | quotedLiteral | numberLiteral | functionName | attributeName | equals =>
    cases h
    exact ⟨.expression _, rfl, iff_of_false nofun nofun, fun _ => rfl⟩
  | reservedSigil | privateSigil =>
    cases h
    exact ⟨.reservedDirective _, rfl, iff_of_false nofun nofun, fun _ => rfl⟩
  | markupOpen | markupClose | selfClose | optionName =>
    obtain ⟨hstate, h⟩ := Option.ite_none_right_eq_some.1 h
    cases h
    exact ⟨.expression _, rfl, iff_of_false nofun nofun, fun _ => if_pos hstate⟩
  | nameLiteral =>
    obtain ⟨hstate, h⟩ := Option.ite_none_left_eq_some.1 h
    cases h
    exact ⟨.expression _, rfl, iff_of_false nofun nofun, fun _ => if_neg hstate⟩
  | text | expressionOpen | patternOpen | patternClose | inputKeyword | localKeyword | matchKeyword
  | reservedKeyword | catchAll | reservedText | endOfInput | fault => cases h

theorem after_pattern (haround : around ≠ .header) (kind : TokenKind) :
    (pattern.context around).after kind = Context.afterPattern around kind := by
  cases around with
  | header => exact absurd rfl haround
  | message | quotedPattern => rfl

/-- So they may inside of a pattern, but for the braces that close it. -/
theorem exists_after {next : Context} (haround : around ≠ .header) (hopen : kind ≠ .patternClose)
    (h : (place.context around).after kind = some next) : ∃ behind : Inside,
      next = behind.context around ∧ (behind = .pattern ↔ kind.endsPart = true) ∧
        ∀ other, other ≠ .header →
          (place.context other).after kind = some (behind.context other) := by
  cases place with
  | pattern =>
    rw [after_pattern haround] at h
    cases kind with
    | text =>
      cases h
      exact ⟨.pattern, rfl, iff_of_true rfl rfl, fun _ hother => after_pattern hother _⟩
    | expressionOpen =>
      cases h
      exact ⟨.expression {}, rfl, iff_of_false nofun nofun, fun _ hother => after_pattern hother _⟩
    | patternClose => exact absurd rfl hopen
    | _ => cases h
  | expression state =>
    obtain ⟨behind, hnext, hends, hafter⟩ := exists_afterExpression h
    exact ⟨behind, hnext, hends, fun other _ => hafter other⟩
  | reservedDirective state =>
    cases kind with
    | blank | quotedLiteral | reservedText =>
      cases h
      exact ⟨.reservedDirective state, rfl, iff_of_false nofun nofun, fun _ _ => rfl⟩
    | expressionClose =>
      cases h
      exact ⟨.pattern, rfl, iff_of_true rfl rfl, fun _ _ => rfl⟩
    | attributeName =>
      cases h
      exact ⟨.expression _, rfl, iff_of_false nofun nofun, fun _ _ => rfl⟩
    | _ => cases h

theorem opensPattern_context (haround : around ≠ .header) (place : Inside) :
    (place.context around).opensPattern = false := by
  cases place with
  | pattern =>
    cases around with
    | header => exact absurd rfl haround
    | message | quotedPattern => rfl
  | expression _ | reservedDirective _ => rfl

/-- The context of a place tells the place. -/
theorem eq_pattern_of_context (h : place.context around = around.context) : place = .pattern := by
  cases place with
  | pattern => rfl
  | expression _ | reservedDirective _ => cases around <;> cases h

/-! ### Paths inside of a pattern -/

/-- A step that does not close the pattern leads to a place inside of it, and so it would in other
surroundings. -/
theorem exists_next {cursor : Cursor} (haround : around ≠ .header)
    (hplace : cursor.context = place.context around) (h : Cursor.isLast cursor.next.1 = false)
    (hopen : cursor.next.1.kind ≠ .patternClose) : ∃ behind : Inside,
      cursor.next.2.context = behind.context around ∧
        (behind = .pattern ↔ cursor.next.1.kind.endsPart = true) ∧
          ∀ other, other ≠ .header →
            (place.context other).after cursor.next.1.kind = some (behind.context other) := by
  have hstart : cursor.context ≠ .start := by
    rw [hplace]
    cases place with
    | pattern => cases around <;> nofun
    | expression _ | reservedDirective _ => nofun
  have hafter := Cursor.next_after hstart h
  rw [hplace] at hafter
  exact exists_after haround hopen hafter

/-- A path over tokens none of which closes the pattern stays inside of it. -/
theorem exists_of_path {tokens : List Token} {cursor stop : Cursor} (haround : around ≠ .header)
    (path : Cursor.Path cursor tokens stop) (hopen : ∀ token ∈ tokens, token.kind ≠ .patternClose)
    (hplace : cursor.context = place.context around) :
    ∃ last : Inside, stop.context = last.context around := by
  induction path generalizing place with
  | nil cursor => exact ⟨place, hplace⟩
  | cons h _ ih =>
    rw [List.forall_mem_cons] at hopen
    obtain ⟨behind, hbehind, -, -⟩ := exists_next haround hplace h hopen.1
    exact ih hopen.2 hbehind

/-- A path up to the end of a pattern is one in other surroundings, over the same words. -/
theorem lexes_of_path {tokens : List Token} {cursor stop : Cursor} (haround : around ≠ .header)
    (hother : other ≠ .header) (path : Cursor.Path cursor tokens stop)
    (hopen : ∀ token ∈ tokens, token.kind ≠ .patternClose) (hstop : stop.rest = around.closing)
    (hcontext : stop.context = around.context) {text : List Char}
    (hplace : cursor.context = place.context around) (htext : cursor.rest = text ++ around.closing) :
    Lexes (place.context other) text other.closing other.context fun others =>
      others.map Token.word = tokens.map Token.word := by
  induction path generalizing place text with
  | nil cursor =>
    obtain rfl := eq_pattern_of_context (hplace.symm.trans hcontext)
    obtain rfl : text = [] := List.append_left_eq_self.1 (htext.symm.trans hstop)
    exact .nil rfl
  | @cons cursor stop tokens h path ih =>
    rw [List.forall_mem_cons] at hopen
    obtain ⟨taken, hrest, hspells, -, -⟩ := Cursor.next_spells h
    obtain ⟨later, hlater, hnone⟩ := path.spellsOut.exists_front
    rw [hstop] at hlater
    obtain rfl : text = taken ++ later := by
      rw [htext, hlater, ← List.append_assoc] at hrest
      exact List.append_cancel_right hrest
    obtain ⟨behind, hbehind, hends, hafter⟩ := exists_next haround hplace h hopen.1
    -- a slash ends no part of the pattern, and so there is something behind it
    have hslash : cursor.next.1.kind = .selfClose → later ≠ [] := by
      rintro hkind rfl
      obtain rfl := hnone rfl
      cases path
      have hpart := hends.1 (eq_pattern_of_context (hbehind.symm.trans hcontext))
      rw [hkind] at hpart
      cases hpart
    rw [Token.Spells, hlater, TokenKind.spells_append_closing hslash,
      ← TokenKind.spells_append_closing hslash other] at hspells
    refine .cons hspells (hafter other hother) ?_
      (ih hopen.2 hstop hcontext hbehind hlater) fun token others hkind hvalue hwords => ?_
    · rw [opensPattern_context hother]
      exact fun h => absurd h Bool.false_ne_true
    · rw [List.map_cons, List.map_cons, hwords, Token.word, Token.word, hkind, hvalue]

end Inside

/-! ### Patterns in other surroundings -/

theorem MarkupEnd.exists_last {begun : TokenKind} {tokens : List Token} {kind : MarkupKind}
    (h : MarkupEnd begun tokens kind) :
    ∃ front last, tokens = front ++ [last] ∧ last.kind = .expressionClose := by
  cases h with
  | opening h | closing h => exact ⟨[], _, rfl, h⟩
  | @standalone slash _ _ h => exact ⟨[slash], _, rfl, h⟩

theorem PatternPart.Derives.exists_last {tokens : List Token} {part : PatternPart}
    (h : PatternPart.Derives tokens part) :
    ∃ front last, tokens = front ++ [last] ∧ last.kind.endsPart = true := by
  cases h with
  | text h => exact ⟨[], _, rfl, by rw [h]; rfl⟩
  | expression h =>
    cases h with
    | @intro opening closing gap content rear final _ _ _ _ _ _ _ _ hclosing =>
      exact ⟨opening :: (gap ++ (content ++ (rear ++ final))), closing, by simp,
        by rw [hclosing]; rfl⟩
  | markup h =>
    cases h with
    | @intro opening name gap front rear final _ _ _ _ _ _ _ _ _ hending =>
      obtain ⟨slash, closing, rfl, hclosing⟩ := hending.exists_last
      exact ⟨opening :: (gap ++ name :: (front ++ (rear ++ (final ++ slash)))), closing, by simp,
        by rw [hclosing]; rfl⟩

/-- The last token of a pattern ends a part of it. -/
theorem Pattern.Derives.exists_last {tokens : List Token} {pattern : Pattern}
    (h : Pattern.Derives tokens pattern) : tokens = [] ∨
      ∃ front last, tokens = front ++ [last] ∧ last.kind.endsPart = true := by
  induction h with
  | nil => exact .inl rfl
  | @cons first _ _ _ h _ ih =>
    right
    rcases ih with rfl | ⟨front, last, rfl, hlast⟩
    · rw [List.append_nil]
      exact h.exists_last
    · exact ⟨first ++ front, last, (List.append_assoc _ _ _).symm, hlast⟩

variable {around : Surroundings}

/-- Behind a pattern, a cursor stands where it stood before it. -/
theorem Pattern.Derives.context_of_path {tokens : List Token} {pattern : Pattern}
    {cursor stop : Cursor} (h : Pattern.Derives tokens pattern) (haround : around ≠ .header)
    (path : Cursor.Path cursor tokens stop)
    (hcursor : cursor.context = Inside.pattern.context around) :
    stop.context = around.context := by
  rcases h.exists_last with rfl | ⟨front, last, rfl, hlast⟩
  · cases path
    exact hcursor
  · obtain ⟨middle, hfront, path⟩ := path.exists_middle
    obtain ⟨hopen, hlastopen⟩ := List.forall_mem_append.1 h.worded.unclosed
    obtain ⟨place, hplace⟩ := Inside.exists_of_path haround hfront hopen hcursor
    cases path with
    | cons hnext path =>
      cases path
      obtain ⟨behind, hbehind, hends, -⟩ :=
        Inside.exists_next haround hplace hnext (hlastopen _ (List.mem_singleton_self _))
      rw [hbehind, hends.2 hlast]
      rfl

/-- **A text that is lexed as a pattern is lexed as the same pattern in other surroundings.** -/
theorem Pattern.Derives.lexes {tokens : List Token} {pattern : Pattern} {stop : Cursor}
    {position : Position} {text : List Char} (h : Pattern.Derives tokens pattern)
    (around other : Surroundings) (haround : around ≠ .header) (hother : other ≠ .header)
    (path : Cursor.Path ⟨around.context, position, text ++ around.closing⟩ tokens stop)
    (hstop : stop.rest = around.closing) :
    Lexes other.context text other.closing other.context (Pattern.Derives · pattern) := by
  have hlexes : Lexes (Inside.pattern.context other) text other.closing other.context fun others =>
      others.map Token.word = tokens.map Token.word :=
    Inside.lexes_of_path haround hother path h.worded.unclosed hstop
      (h.context_of_path haround path rfl) rfl rfl
  exact hlexes.mono fun others hwords => h.worded.same others hwords

/-! ### Quoted sources -/

/-- There is no blank behind closing braces that the text ends in. -/
theorem Gap.eq_nil {tokens : List Token} {text front rest : List Char} (h : Gap tokens)
    (hspelled : SpellsOut tokens rest []) (htext : text ++ ['}', '}'] = front ++ rest) :
    tokens = [] := by
  cases h with
  | nothing => rfl
  | @blank token h =>
    exfalso
    cases hspelled with
    | @cons _ _ taken _ _ hspells later =>
      cases later
      rw [Token.Spells, beq_iff_eq.1 h] at hspells
      obtain ⟨htaken, ⟨hne, hblank⟩, -⟩ := hspells
      rw [← htaken] at hne hblank
      have hlast : some '}' = some (taken.getLast hne) := by
        simpa [List.getLast?_append, List.getLast?_eq_some_getLast hne] using
          congrArg List.getLast? htext
      have := hblank _ (List.getLast_mem hne)
      rw [← Option.some.inj hlast] at this
      cases this

/-- Where a quoted pattern ends and the text too, there is nothing but the closing braces. -/
theorem rest_eq_closing_of_path {closing : Token} {final : List Token} {cursor stop : Cursor}
    {text front : List Char} (hclosing : closing.kind = .patternClose) (hfinal : Gap final)
    (path : Cursor.Path cursor (closing :: final) stop) (hstop : stop.rest = [])
    (htext : text ++ ['}', '}'] = front ++ cursor.rest) : cursor.rest = ['}', '}'] := by
  cases path with
  | cons h path =>
    obtain ⟨taken, hrest, hspells, -, -⟩ := Cursor.next_spells h
    have hspelled := path.spellsOut
    rw [hstop] at hspelled
    rw [hrest, ← List.append_assoc] at htext
    obtain rfl := hfinal.eq_nil hspelled htext
    cases path
    rw [Token.Spells, hclosing] at hspells
    rw [hrest, hstop, List.append_nil, hspells.1, hspells.2]

theorem toList_betweenBraces (source : String) : ("\x7b\x7b" ++ source ++ "\x7d\x7d").toList =
    ['{', '{'] ++ (source.toList ++ ['}', '}']) := by
  rw [String.toList_append, String.toList_append, List.append_assoc]
  rfl

/-- Two opening braces lead into a quoted pattern. -/
theorem next_braces (position : Position) (text : List Char) :
    Cursor.next ⟨.header, position, '{' :: '{' :: text⟩ =
      (⟨.patternOpen, "\x7b\x7b", .between position (position.after ['{', '{'])⟩,
        ⟨.quotedPattern, position.after ['{', '{'], text⟩) := by
  have hscan : Context.header.scan '{' ('{' :: text) =
      ⟨['{', '{'], text, .ok ⟨.patternOpen, ['{', '{'], .quotedPattern⟩⟩ :=
    Context.scan_of_spells ⟨rfl, rfl⟩ rfl rfl nofun
  exact Cursor.next_of_scan hscan

/-- The tokens of a message that is a quoted pattern and nothing else. -/
theorem Message.DerivesInner.exists_quoted {tokens : List Token} {pattern : Pattern}
    (h : Message.DerivesInner tokens (.complex [] (.pattern pattern))) :
    ∃ gap opening inner closing final, tokens = gap ++ opening :: (inner ++ closing :: final) ∧
      Gap gap ∧ Pattern.Derives inner pattern ∧ closing.kind = .patternClose ∧ Gap final := by
  cases h with
  | @complex gap _ _ final _ _ hgap hdeclarations hbody hfinal =>
    cases hdeclarations
    cases hbody with
    | pattern hquoted =>
      cases hquoted with
      | @intro opening closing inner _ _ hpattern hclosing =>
        exact ⟨gap, opening, inner, closing, final, by simp, hgap, hpattern, hclosing, hfinal⟩

/-- What stands between the braces of a quoted pattern is lexed as the pattern. -/
theorem exists_path_of_parse_quoted {source : String} {pattern : Pattern}
    (h : parse ("\x7b\x7b" ++ source ++ "\x7d\x7d") = .ok (.complex [] (.pattern pattern))) :
    ∃ position tokens stop, Cursor.Path ⟨.quotedPattern, position, source.toList ++ ['}', '}']⟩ tokens
      stop ∧ stop.rest = ['}', '}'] ∧ Pattern.Derives tokens pattern := by
  obtain ⟨tokens, stop, path, hstop, hderives⟩ := parse_eq_ok_iff_path.1 h
  obtain ⟨gap, opening, inner, closing, final, rfl, hgap, hpattern, hclosing, hfinal⟩ :=
    hderives.exists_quoted
  have hnext := next_braces .start (source.toList ++ ['}', '}'])
  generalize hcursor : Cursor.mk .header .start ('{' :: '{' :: (source.toList ++ ['}', '}'])) =
    cursor at hnext
  rw [toList_betweenBraces] at path
  have path : Cursor.Path cursor (gap ++ opening :: (inner ++ closing :: final)) stop :=
    hcursor ▸ path
  obtain rfl : gap = [] := by
    cases hgap with
    | nothing => rfl
    | blank hblank =>
      cases path
      rw [Token.isBlank, hnext] at hblank
      cases hblank
  cases path with
  | cons _ path =>
    rw [hnext] at path
    obtain ⟨middle, hinner, path⟩ := path.exists_middle
    obtain ⟨front, htext, -⟩ := hinner.spellsOut.exists_front
    exact ⟨_, inner, middle, hinner, rest_eq_closing_of_path hclosing hfinal path hstop htext,
      hpattern⟩

theorem beginsComplex_eq_false {text : List Char} (hpoint : ¬ ['.'] <+: text.dropWhile isBlank)
    (hbraces : ¬ ['{', '{'] <+: text.dropWhile isBlank) : Context.beginsComplex text = false := by
  unfold Context.beginsComplex
  split
  · rename_i rest heq
    exact absurd ⟨rest, heq.symm⟩ hpoint
  · rename_i rest heq
    exact absurd ⟨rest, heq.symm⟩ hbraces
  · rfl

/-- **A source is parsed as a pattern just if it is one between double braces**, unless it looks like
a complex message: what it begins with, blanks aside, must be neither a point nor two opening
braces. -/
theorem parse_quoted_iff {source : String} {pattern : Pattern}
    (hpoint : ¬ ['.'] <+: source.toList.dropWhile isBlank)
    (hbraces : ¬ ['{', '{'] <+: source.toList.dropWhile isBlank) :
    parse source = .ok (.simple pattern) ↔
      parse ("\x7b\x7b" ++ source ++ "\x7d\x7d") = .ok (.complex [] (.pattern pattern)) := by
  have hsimple := beginsComplex_eq_false hpoint hbraces
  constructor
  · intro h
    obtain ⟨tokens, stop, path, hstop, hderives⟩ := parse_eq_ok_iff_path.1 h
    rw [hsimple, ← List.append_nil source.toList] at path
    cases hderives with
    | simple hpattern =>
      have hlexes : Lexes .quotedPattern source.toList (['}', '}'] ++ []) .quotedPattern
          (Pattern.Derives · pattern) :=
        hpattern.lexes .message .quotedPattern nofun nofun path hstop
      obtain ⟨tokens, path, hquoted⟩ := hlexes.betweenBraces .start
      rw [List.append_nil] at path
      have hderives := Message.DerivesInner.complex .nothing .nil (.pattern hquoted) .nothing
      rw [List.nil_append, List.nil_append, List.append_nil] at hderives
      rw [parse_eq_ok_iff_path, toList_betweenBraces]
      exact ⟨tokens, _, path, rfl, hderives⟩
  · intro h
    obtain ⟨position, tokens, stop, path, hstop, hpattern⟩ := exists_path_of_parse_quoted h
    have hlexes : Lexes .message source.toList [] .message (Pattern.Derives · pattern) :=
      hpattern.lexes .quotedPattern .message nofun nofun path hstop
    obtain ⟨tokens, path, hpattern⟩ := hlexes .start
    rw [List.append_nil] at path
    rw [parse_eq_ok_iff_path, hsimple]
    exact ⟨tokens, _, path, rfl, .simple hpattern⟩

/-- A source with a placeholder, escapes and markup that ends before the closing braces. -/
def invitation : String := " Dear \x7b$name :string\x7d, \\\x7bcome\\\x7d! \x7b#b /\x7d"

theorem parse_quoted_iff_invitation :
    (∃ pattern, parse invitation = .ok (.simple pattern) ∧
        parse ("\x7b\x7b" ++ invitation ++ "\x7d\x7d") = .ok (.complex [] (.pattern pattern))) ∧
      ∀ pattern, parse ("\x7b\x7b" ++ "come\\" ++ "\x7d\x7d") ≠
        .ok (.complex [] (.pattern pattern)) := by
  constructor
  · have hsimple : (parse invitation).toOption.any Message.isSimple = true := by decide +kernel
    cases h : parse invitation with
    | error e =>
      rw [h] at hsimple
      cases hsimple
    | ok m =>
      cases m with
      | simple pattern => exact ⟨pattern, rfl, (parse_quoted_iff (by decide) (by decide)).1 h⟩
      | complex _ _ =>
        rw [h] at hsimple
        cases hsimple
  · -- the first closing brace does not make an escape of the backslash before it
    intro pattern h
    have hsimple := (parse_quoted_iff (by decide) (by decide)).2 h
    have herror : (parse "come\\").toOption.isNone = true := by decide +kernel
    rw [hsimple] at herror
    cases herror

end MessageFormat
