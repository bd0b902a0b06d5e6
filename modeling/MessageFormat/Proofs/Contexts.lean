import MessageFormat.Proofs.Spelling

/-!
# Where lexemes stand

What kinds of lexemes there may be depends on where they stand, and so does where a scanner stands
behind one.  `Context.after` says both, by the kind of the lexeme alone; a scan does no more than to
find a spelling of a lexeme that there may be.

* `Context.spelled_scan` : a lexeme that is scanned is spelled as its kind says;
* `Context.scan_of_spells` : a spelling of a lexeme that there may be is scanned as that lexeme.
-/

namespace MessageFormat

open Scanner

namespace Context

/-! ### Contexts -/

/-- The context behind a lexeme of a pattern. -/
def afterPattern (around : Surroundings) : TokenKind → Option Context
  | .text => some around.context
  | .expressionOpen => some (.expression around {})
  | .patternClose => if around = .quotedPattern then some .header else none
  | _ => none

/-- The context behind a lexeme of the header. -/
def afterHeader : TokenKind → Option Context
  | .blank | .variableName | .equals | .catchAll | .quotedLiteral | .numberLiteral | .nameLiteral
  | .inputKeyword | .localKeyword | .matchKeyword => some .header
  | .reservedKeyword => some .reservedStatement
  | .patternOpen => some .quotedPattern
  | .expressionOpen => some (.expression .header {})
  | _ => none

/-- The context behind a lexeme of an expression. -/
def afterExpression (around : Surroundings) (state : ExpressionState) :
    TokenKind → Option Context :=
  let begun := { state with atStart := false }
  let valued := { begun with awaitsValue := false }
  let namesOption := state.takesOptions && !state.awaitsValue
  fun
  | .blank => some (.expression around state)
  | .expressionClose => some around.context
  | .markupOpen | .markupClose =>
    if state.atStart then
      some (.expression around { begun with inMarkup := true, takesOptions := true })
    else none
  | .selfClose =>
    if state.inMarkup && !state.atStart then some (.expression around begun) else none
  | .variableName | .quotedLiteral | .numberLiteral => some (.expression around valued)
  | .functionName => some (.expression around { begun with takesOptions := true })
  | .attributeName => some (.expression around { valued with takesOptions := false })
  | .equals => some (.expression around { begun with awaitsValue := true })
  | .optionName => if namesOption then some (.expression around begun) else none
  | .nameLiteral => if namesOption then none else some (.expression around valued)
  | .reservedSigil | .privateSigil => some (.reservedDirective around begun)
  | _ => none

/-- The context behind a lexeme of a reserved body, or behind what ends the body. -/
def afterReserved (within : Context) (after : TokenKind → Option Context) :
    TokenKind → Option Context
  | .blank | .quotedLiteral | .reservedText => some within
  | .expressionOpen => after .expressionOpen
  | .expressionClose => after .expressionClose
  | .patternOpen => after .patternOpen
  | .attributeName => after .attributeName
  | .text => after .text
  | .patternClose => after .patternClose
  | _ => none

/-- The context behind a lexeme of the kind, if there may be one.  At the start of a message this
depends on more than the kind. -/
def after : Context → TokenKind → Option Context
  | start => fun _ => none
  | message => afterPattern .message
  | quotedPattern => afterPattern .quotedPattern
  | header => afterHeader
  | reservedStatement => afterReserved .reservedStatement afterHeader
  | expression around state => afterExpression around state
  | reservedDirective around state =>
    afterReserved (.reservedDirective around state) (afterExpression around state)

/-- Whether two opening braces begin a quoted pattern here. -/
def opensPattern : Context → Bool
  | header | reservedStatement => true
  | _ => false

/-! ### What is scanned is spelled so -/

/-- Where the scan succeeds with a lexeme, it took a spelling of it, and the context goes on behind
a lexeme of its kind. -/
def Spelled (scan : Scan Lexeme) (after : TokenKind → Option Context) : Prop :=
  ∀ taken behind lexeme, scan = ⟨taken, behind, .ok lexeme⟩ →
    lexeme.kind.Spells taken lexeme.value behind ∧ after lexeme.kind = some lexeme.next

theorem lexemeScan_eq_iff {kind : TokenKind} {next : Context} {s : Scanner (List Char)}
    {text taken behind : List Char} {lexeme : Lexeme} :
    Lexeme.scan kind next s text = ⟨taken, behind, .ok lexeme⟩ ↔
      ∃ value, Yields s text taken value behind ∧ lexeme = ⟨kind, value, next⟩ := by
  refine (yields_bind_iff (s := s)).trans ?_
  simp only [yields_pure_iff]
  constructor
  · rintro ⟨first, value, middle, second, hs, ⟨rfl, rfl, rfl⟩, rfl⟩
    exact ⟨value, by simpa using hs, rfl⟩
  · rintro ⟨value, hs, rfl⟩
    exact ⟨taken, value, behind, [], hs, ⟨rfl, rfl, rfl⟩, by simp⟩

variable {after : TokenKind → Option Context} {next : Context} {text : List Char}

theorem spelled_lexeme {kind : TokenKind} {s : Scanner (List Char)}
    (hs : ∀ taken value behind, Yields s text taken value behind → kind.Spells taken value behind)
    (hafter : after kind = some next) : Spelled (Lexeme.scan kind next s text) after := by
  intro taken behind lexeme h
  obtain ⟨value, hyields, rfl⟩ := lexemeScan_eq_iff.1 h
  exact ⟨hs _ _ _ hyields, hafter⟩

theorem spelled_ite {p : Prop} [Decidable p] {a b : Scan Lexeme} (ha : p → Spelled a after)
    (hb : ¬p → Spelled b after) : Spelled (if p then a else b) after := by
  split
  · exact ha ‹p›
  · exact hb ‹¬p›

theorem spelled_fail {fault : Fault} : Spelled (fail fault text) after := by
  intro taken behind lexeme h
  exact absurd h not_yields_fail

theorem spelled_blank {c : Char} (hc : isBlank c = true) (hafter : after .blank = some next) :
    Spelled (Lexeme.blank next (c :: text)) after := by
  refine spelled_lexeme (fun taken value behind h => ?_) hafter
  obtain ⟨htext, rfl, hall, hbehind⟩ := yields_takeWhile_iff.1 h
  refine ⟨rfl, ⟨?_, hall⟩, hbehind⟩
  rintro rfl
  rw [List.nil_append] at htext
  rw [← htext, stopsAt_cons, hc] at hbehind
  cases hbehind

theorem spelled_take {kind : TokenKind} {n : Nat}
    (hs : kind.Spells (text.take n) (text.take n) (text.drop n)) (hafter : after kind = some next) :
    Spelled (Lexeme.scan kind next (take n) text) after := by
  refine spelled_lexeme (fun taken value behind h => ?_) hafter
  obtain ⟨rfl, rfl, rfl⟩ := yields_take_iff.1 h
  exact hs

theorem spelled_quoted {c : Char} (hc : (c == '|') = true)
    (hafter : after .quotedLiteral = some next) :
    Spelled (Lexeme.scan .quotedLiteral next quoted (c :: text)) after := by
  refine spelled_lexeme (fun taken value behind h => ?_) hafter
  obtain ⟨body, htaken, -, hbody⟩ := yields_quoted_iff.1 h
  rw [beq_iff_eq] at hc
  exact ⟨body, by rw [htaken, hc], hbody⟩

theorem spelled_behind_name {kind : TokenKind} {sigil c : Char} {missing : Fault}
    (hc : (c == sigil) = true) (hafter : after kind = some next)
    (hkind : ∀ taken value behind, SpellsName [sigil] taken value behind →
      kind.Spells taken value behind) :
    Spelled (Lexeme.scan kind next (behind (name missing)) (c :: text)) after := by
  refine spelled_lexeme (fun taken value behind h => ?_) hafter
  obtain ⟨later, rfl, hname⟩ := yields_behind_iff.1 h
  obtain ⟨-, rfl, hlater, hbehind⟩ := yields_name_iff.1 hname
  rw [beq_iff_eq] at hc
  exact hkind _ _ _ ⟨by rw [hc]; rfl, hlater, hbehind⟩

theorem spelled_behind_identifier {kind : TokenKind} {sigil c : Char}
    (hc : (c == sigil) = true) (hafter : after kind = some next)
    (hkind : ∀ taken value behind, SpellsIdentifier [sigil] taken value behind →
      kind.Spells taken value behind) :
    Spelled (Lexeme.scan kind next (behind identifier) (c :: text)) after := by
  refine spelled_lexeme (fun taken value behind h => ?_) hafter
  obtain ⟨later, rfl, hidentifier⟩ := yields_behind_iff.1 h
  obtain ⟨-, rfl, hlater, hbehind⟩ := yields_identifier_iff.1 hidentifier
  rw [beq_iff_eq] at hc
  exact hkind _ _ _ ⟨by rw [hc]; rfl, hlater, hbehind⟩

theorem spelled_number (hafter : after .numberLiteral = some next) :
    Spelled (Lexeme.scan .numberLiteral next number text) after := by
  refine spelled_lexeme (fun taken value behind h => ?_) hafter
  obtain ⟨-, rfl, hnumber, hbehind⟩ := yields_number_iff.1 h
  exact ⟨rfl, hnumber, hbehind⟩

theorem spelled_name {missing : Fault} (hafter : after .nameLiteral = some next) :
    Spelled (Lexeme.scan .nameLiteral next (name missing) text) after := by
  refine spelled_lexeme (fun taken value behind h => ?_) hafter
  obtain ⟨-, rfl, hname, hbehind⟩ := yields_name_iff.1 h
  exact ⟨rfl, hname, hbehind⟩

theorem spelled_scanPattern (around : Surroundings) (c : Char) (rest : List Char) :
    Spelled (scanPattern around c rest) (afterPattern around) := by
  unfold scanPattern
  refine spelled_ite (fun hc => ?_) fun hopen => spelled_ite (fun hc => ?_) fun hclose => ?_
  · rw [beq_iff_eq] at hc
    subst hc
    exact spelled_take ⟨rfl, rfl⟩ rfl
  · rw [beq_iff_eq] at hc
    subst hc
    refine spelled_ite (fun h => ?_) fun _ => spelled_fail
    simp only [Bool.and_eq_true, beq_iff_eq] at h
    obtain ⟨rfl, hhead⟩ := h
    cases rest with
    | nil => cases hhead
    | cons d rest =>
      rw [List.head?_cons, Option.some.injEq] at hhead
      subst hhead
      exact spelled_take ⟨rfl, rfl⟩ rfl
  · refine spelled_lexeme (fun taken value behind h => ?_) rfl
    obtain ⟨htext, hdecodes, hbehind⟩ := yields_patternText_iff.1 h
    refine ⟨?_, hdecodes, hbehind⟩
    rintro rfl
    rw [List.nil_append] at htext
    rw [← htext, stopsAt_cons] at hbehind
    simp only [beq_iff_eq] at hopen hclose
    simp [isNoBrace, hopen, hclose] at hbehind

theorem spelled_scanKeyword {c : Char} (hc : (c == '.') = true) :
    Spelled (scanKeyword (c :: text)) afterHeader := by
  intro taken behind lexeme h
  obtain ⟨_, word, _, _, hbehind, hpure, rfl⟩ := yields_bind_iff.1 h
  obtain ⟨rfl, rfl, rfl⟩ := yields_pure_iff.1 hpure
  obtain ⟨later, rfl, hname⟩ := yields_behind_iff.1 hbehind
  obtain ⟨-, rfl, hword, hstop⟩ := yields_name_iff.1 hname
  rw [beq_iff_eq] at hc
  subst hc
  have hspells : SpellsName ['.'] ('.' :: word ++ []) word behind := ⟨by simp, hword, hstop⟩
  simp only [keyword, beq_iff_eq]
  by_cases hinput : word = "input".toList
  · rw [if_pos hinput]
    exact ⟨⟨hspells, hinput⟩, rfl⟩
  · rw [if_neg hinput]
    by_cases hlocal : word = "local".toList
    · rw [if_pos hlocal]
      exact ⟨⟨hspells, hlocal⟩, rfl⟩
    · rw [if_neg hlocal]
      by_cases hmatch : word = "match".toList
      · rw [if_pos hmatch]
        exact ⟨⟨hspells, hmatch⟩, rfl⟩
      · rw [if_neg hmatch]
        exact ⟨⟨hspells, by simp only [List.mem_cons, hinput, hlocal, hmatch, List.not_mem_nil,
          or_self, not_false_eq_true]⟩, rfl⟩

theorem spelled_scanHeader (c : Char) (rest : List Char) :
    Spelled (scanHeader c rest) afterHeader := by
  unfold scanHeader
  refine spelled_ite (fun hc => spelled_blank hc rfl) fun _ =>
    spelled_ite (fun hc => spelled_scanKeyword hc) fun _ =>
    spelled_ite (fun hc => spelled_ite (fun hhead => ?_) fun _ => ?_) fun _ =>
    spelled_ite (fun hc => spelled_behind_name hc rfl fun _ _ _ h => h) fun _ =>
    spelled_ite (fun hc => ?_) fun _ =>
    spelled_ite (fun hc => ?_) fun _ =>
    spelled_ite (fun hc => spelled_quoted hc rfl) fun _ =>
    spelled_ite (fun _ => spelled_number rfl) fun _ =>
    spelled_ite (fun _ => spelled_name rfl) fun _ => spelled_fail
  · rw [beq_iff_eq] at hc hhead
    subst hc
    obtain ⟨rest, rfl⟩ := List.head?_eq_some_iff.1 hhead
    exact spelled_take ⟨rfl, rfl⟩ rfl
  all_goals
    rw [beq_iff_eq] at hc
    subst hc
    exact spelled_take ⟨rfl, rfl⟩ rfl

theorem spelled_scanExpression (around : Surroundings) (state : ExpressionState) (c : Char)
    (rest : List Char) : Spelled (scanExpression around state c rest)
      (afterExpression around state) := by
  unfold scanExpression
  refine spelled_ite (fun hc => spelled_blank hc rfl) fun _ =>
    spelled_ite (fun hc => ?_) fun _ =>
    spelled_ite (fun hc => ?_) fun _ =>
    spelled_ite (fun hc => ?_) fun hclose =>
    spelled_ite (fun hc => ?_) fun _ =>
    spelled_ite (fun hc => spelled_behind_name hc rfl fun _ _ _ h => h) fun _ =>
    spelled_ite (fun hc => spelled_behind_identifier hc rfl fun _ _ _ h => h) fun _ =>
    spelled_ite (fun hc => spelled_behind_identifier hc rfl fun _ _ _ h => h) fun _ =>
    spelled_ite (fun hc => ?_) fun _ =>
    spelled_ite (fun hc => spelled_quoted hc rfl) fun _ =>
    spelled_ite (fun _ => spelled_number rfl) fun _ =>
    spelled_ite (fun _ => spelled_ite (fun hoption => ?_) fun hoption => ?_) fun _ =>
    spelled_ite (fun hc => spelled_take ⟨rfl, c, hc, rfl⟩ rfl) fun _ =>
    spelled_ite (fun hc => spelled_take ⟨rfl, c, hc, rfl⟩ rfl) fun _ =>
    spelled_ite (fun _ => spelled_fail) fun _ => spelled_fail
  · rw [beq_iff_eq] at hc
    subst hc
    exact spelled_take ⟨rfl, rfl⟩ rfl
  · rw [Bool.and_eq_true] at hc
    exact spelled_behind_identifier hc.1 (if_pos hc.2) fun _ _ _ h => h
  · rw [Bool.and_eq_true] at hc
    exact spelled_behind_identifier hc.1 (if_pos hc.2) fun _ _ _ h => h
  · -- a slash that begins no closing markup, since something stands before it
    simp only [Bool.and_eq_true, beq_iff_eq] at hc hclose
    obtain ⟨⟨rfl, hmarkup⟩, hhead⟩ := hc
    have hstart : state.atStart = false := by simpa using hclose
    exact spelled_take ⟨rfl, rfl, hhead⟩ (if_pos (by simp [hmarkup, hstart]))
  · rw [beq_iff_eq] at hc
    subst hc
    exact spelled_take ⟨rfl, rfl⟩ rfl
  · refine spelled_lexeme (fun taken value behind h => ?_) (if_pos hoption)
    obtain ⟨-, rfl, hidentifier, hbehind⟩ := yields_identifier_iff.1 h
    exact ⟨rfl, hidentifier, hbehind⟩
  · exact spelled_name (if_neg hoption)

/-- Whether a reserved body goes on with the character. -/
def continuesBody (c : Char) : Bool := isBlank c || c == '|' || c == '\\' || isReservedChar c

theorem continuesBody_of {p : Char → Bool} {c : Char} (hc : p c = true)
    (hp : leavesOut p gaps = true) : continuesBody c = true := by
  simp [continuesBody, isReservedChar, isContentChar_of hc hp]

/-- What does not go on with a reserved body stands behind it as it would anywhere else. -/
theorem afterReserved_of_not_continuesBody {within : Context} {kind : TokenKind} {c : Char}
    (hbegins : kind.begins c = true) (hc : continuesBody c = false) :
    afterReserved within after kind = after kind := by
  have hcontent (p : Char → Bool) (h : p c = true)
      (hp : leavesOut p gaps = true) : False := by
    rw [continuesBody_of h hp] at hc
    cases hc
  have hbody (d : Char) (h : (c == d) = true) (hd : continuesBody d = true) : False := by
    rw [beq_iff_eq.1 h, hd] at hc
    cases hc
  simp only [continuesBody, Bool.or_eq_false_iff] at hc
  cases kind with
  | text | expressionOpen | expressionClose | patternOpen | patternClose | attributeName => rfl
  | quotedLiteral => exact (hbody _ hbegins (by decide)).elim
  | blank =>
    rw [show isBlank c = true from hbegins] at hc
    cases hc.1.1.1
  | reservedText =>
    simp [TokenKind.begins, goesOn, hc] at hbegins
  | nameLiteral | optionName => exact (hcontent isNameStart hbegins (by decide)).elim
  | numberLiteral => exact (hcontent beginsNumber hbegins (by decide)).elim
  | reservedSigil => exact (hcontent isReservedSigil hbegins (by decide)).elim
  | privateSigil => exact (hcontent isPrivateSigil hbegins (by decide)).elim
  | endOfInput | fault => cases hbegins
  | _ => exact (hbody _ hbegins (by decide)).elim

theorem spelled_scanReserved {within : Context} {scanAfter : Char → List Char → Scan Lexeme}
    {c : Char} {rest : List Char} (hafter : Spelled (scanAfter c rest) after)
    (htakes : Takes (scanAfter c rest) (c :: rest)) :
    Spelled (scanReserved within scanAfter c rest) (afterReserved within after) := by
  unfold scanReserved
  refine spelled_ite (fun hc => spelled_blank hc rfl) fun hblank =>
    spelled_ite (fun hc => spelled_quoted hc rfl) fun hquote =>
    spelled_ite (fun hc => ?_) fun htext => ?_
  · refine spelled_lexeme (fun taken value behind h => ?_) rfl
    obtain ⟨htext, hdecodes, hbehind⟩ := (yields_decoded_iff (by decide)).1 h
    cases taken with
    | nil =>
      rw [List.nil_append] at htext
      rw [← htext, stopsAt_cons, goesOn, Bool.or_comm, hc] at hbehind
      cases hbehind
    | cons d taken =>
      rw [(List.cons.inj htext).1] at hblank
      exact ⟨⟨List.cons_ne_nil d taken, hdecodes, hbehind⟩, stopsAt_cons.2 (by simpa using hblank)⟩
  · intro taken behind lexeme h
    obtain ⟨hspells, hnext⟩ := hafter taken behind lexeme h
    obtain ⟨d, later, rfl, hd⟩ := hspells.beginsWith
    have hcovers := htakes.covers
    rw [h, List.cons_append, List.cons.injEq] at hcovers
    rw [hcovers.1] at hd
    refine ⟨hspells, ?_⟩
    rw [afterReserved_of_not_continuesBody hd, hnext]
    simp only [Bool.not_eq_true, Bool.or_eq_false_iff] at hblank hquote htext
    simp [continuesBody, hblank, hquote, htext]

/-- A lexeme that is scanned is spelled as its kind says, and the context goes on behind it. -/
theorem spelled_scan {context : Context} (hstart : context ≠ start) (c : Char) (rest : List Char) :
    Spelled (context.scan c rest) context.after := by
  cases context with
  | start => exact absurd rfl hstart
  | message => exact spelled_scanPattern _ c rest
  | quotedPattern => exact spelled_scanPattern _ c rest
  | header => exact spelled_scanHeader c rest
  | reservedStatement =>
    exact spelled_scanReserved (spelled_scanHeader c rest) (takes_scanHeader c rest)
  | expression around state => exact spelled_scanExpression around state c rest
  | reservedDirective around state =>
    exact spelled_scanReserved (spelled_scanExpression around state c rest)
      (takes_scanExpression around state c rest)

/-- The start of a message is in the header of a complex message or in the pattern of a simple
one. -/
theorem scan_start (c : Char) (rest : List Char) :
    start.scan c rest = (if beginsComplex (c :: rest) then header else message).scan c rest := by
  simp only [scan]
  split <;> rfl

theorem spells_of_scan {context : Context} {c : Char} {rest taken behind : List Char}
    {lexeme : Lexeme} (h : context.scan c rest = ⟨taken, behind, .ok lexeme⟩) :
    lexeme.kind.Spells taken lexeme.value behind := by
  by_cases hstart : context = start
  · rw [hstart, scan_start] at h
    refine (spelled_scan ?_ c rest taken behind lexeme h).1
    split <;> nofun
  · exact (spelled_scan hstart c rest taken behind lexeme h).1

/-! ### What is spelled so is scanned -/

theorem scan_yields {s : Scanner (List Char)} {kind : TokenKind}
    {taken value behind : List Char} (h : Yields s text taken value behind) :
    Lexeme.scan kind next s text = ⟨taken, behind, .ok ⟨kind, value, next⟩⟩ :=
  lexemeScan_eq_iff.2 ⟨value, h, rfl⟩

theorem yields_blank {value behind : List Char} (h : TokenKind.blank.Spells value value behind) :
    Yields (takeWhile isBlank) (value ++ behind) value value behind :=
  yields_takeWhile_iff.2 ⟨rfl, rfl, h.2.1.2, h.2.2⟩

theorem yields_symbol {symbol taken value behind : List Char}
    (h : taken = value ∧ value = symbol) :
    Yields (take symbol.length) (taken ++ behind) taken value behind := by
  obtain ⟨rfl, rfl⟩ := h
  exact yields_take_iff.2 ⟨List.take_left.symm, List.take_left.symm, List.drop_left.symm⟩

theorem yields_behind_name {sigil : Char} {missing : Fault} {taken value behind : List Char}
    (h : SpellsName [sigil] taken value behind) :
    Yields (Scanner.behind (name missing)) (taken ++ behind) taken value behind := by
  obtain ⟨rfl, hname, hbehind⟩ := h
  exact yields_behind_iff.2 ⟨value, rfl, yields_name_iff.2 ⟨rfl, rfl, hname, hbehind⟩⟩

theorem yields_behind_identifier {sigil : Char} {taken value behind : List Char}
    (h : SpellsIdentifier [sigil] taken value behind) :
    Yields (Scanner.behind identifier) (taken ++ behind) taken value behind := by
  obtain ⟨rfl, hidentifier, hbehind⟩ := h
  exact yields_behind_iff.2 ⟨value, rfl, yields_identifier_iff.2 ⟨rfl, rfl, hidentifier, hbehind⟩⟩

theorem yields_quoted {taken value behind : List Char}
    (h : TokenKind.quotedLiteral.Spells taken value behind) :
    Yields quoted (taken ++ behind) taken value behind := by
  obtain ⟨body, rfl, hbody⟩ := h
  exact yields_quoted_iff.2 ⟨body, rfl, by simp, hbody⟩

theorem scanPattern_of_spells {around : Surroundings} {kind : TokenKind} {c : Char}
    {rest taken value behind : List Char} (hspells : kind.Spells taken value behind)
    (htext : taken ++ behind = c :: rest) (hafter : afterPattern around kind = some next) :
    scanPattern around c rest = ⟨taken, behind, .ok ⟨kind, value, next⟩⟩ := by
  obtain ⟨d, later, rfl, hd⟩ := hspells.beginsWith
  rw [List.cons_append, List.cons.injEq] at htext
  obtain ⟨rfl, rfl⟩ := htext
  cases kind with
  | text =>
    obtain rfl := Option.some.inj hafter
    have hbrace := isNoBrace_of_goesOn hd
    simp only [isNoBrace, Bool.and_eq_true, bne_iff_ne] at hbrace
    simp only [scanPattern, beq_iff_eq, hbrace.1, hbrace.2, if_false]
    exact scan_yields (yields_patternText_iff.2 ⟨rfl, hspells.2⟩)
  | expressionOpen =>
    obtain rfl := Option.some.inj hafter
    obtain rfl := beq_iff_eq.1 hd
    exact scan_yields (yields_symbol hspells)
  | patternClose =>
    obtain ⟨rfl, hnext⟩ := Option.ite_none_right_eq_some.1 hafter
    obtain rfl := Option.some.inj hnext
    obtain ⟨rfl, h⟩ := hspells
    obtain ⟨rfl, rfl⟩ := List.cons.inj h
    exact scan_yields (yields_take_iff.2 ⟨rfl, rfl, rfl⟩)
  | _ => cases hafter

theorem scanKeyword_of_spells {taken value behind : List Char}
    (h : SpellsName ['.'] taken value behind) :
    scanKeyword (taken ++ behind) =
      ⟨taken, behind, .ok ⟨(keyword value).1, value, (keyword value).2⟩⟩ :=
  yields_bind_iff.2 ⟨taken, value, behind, [], yields_behind_name h, yields_pure_iff.2
    ⟨rfl, rfl, rfl⟩, by simp⟩

theorem keyword_of_reserved {value : List Char}
    (h : value ∉ ["input".toList, "local".toList, "match".toList]) :
    keyword value = (.reservedKeyword, .reservedStatement) := by
  simp only [List.mem_cons, List.not_mem_nil, or_false, not_or] at h
  simp only [keyword, beq_iff_eq]
  rw [if_neg h.1, if_neg h.2.1, if_neg h.2.2]

theorem scanHeader_number {c : Char} (hc : beginsNumber c = true) (rest : List Char) :
    scanHeader c rest = Lexeme.scan .numberLiteral .header number (c :: rest) := by
  have hother : ∀ d ∈ ['.', '{', '$', '=', '*', '|'], (c == d) = false :=
    forall_beq_false_of hc (by decide)
  simp only [List.forall_mem_cons] at hother
  simp only [scanHeader, not_isBlank hc (by decide), hother, Bool.false_eq_true, if_false]
  exact if_pos hc

theorem scanHeader_name {c : Char} (hc : isNameStart c = true) (rest : List Char) :
    scanHeader c rest = Lexeme.scan .nameLiteral .header (name .missingName) (c :: rest) := by
  have hother : ∀ d ∈ ['.', '{', '$', '=', '*', '|', '-'], (c == d) = false :=
    forall_beq_false_of hc (by decide)
  simp only [List.forall_mem_cons] at hother
  simp only [scanHeader, not_isBlank hc (by decide), not_isDigit hc (by decide), hother,
    Bool.or_false, Bool.false_eq_true, if_false]
  exact if_pos hc

theorem scanHeader_expressionOpen {rest : List Char} (h : rest.head? ≠ some '{') :
    scanHeader '{' rest =
      Lexeme.scan .expressionOpen (.expression .header {}) (take 1) ('{' :: rest) := by
  have hhead : ¬ (rest.head? == some '{') = true := by rwa [beq_iff_eq]
  show (if rest.head? == some '{' then _ else _ : Scan Lexeme) = _
  rw [if_neg hhead]

theorem scanHeader_of_spells {kind : TokenKind} {c : Char} {rest taken value behind : List Char}
    (hspells : kind.Spells taken value behind) (htext : taken ++ behind = c :: rest)
    (hafter : afterHeader kind = some next)
    (hopen : kind = .expressionOpen → behind.head? ≠ some '{') :
    scanHeader c rest = ⟨taken, behind, .ok ⟨kind, value, next⟩⟩ := by
  obtain ⟨d, later, rfl, hd⟩ := hspells.beginsWith
  rw [List.cons_append, List.cons.injEq] at htext
  obtain ⟨rfl, rfl⟩ := htext
  cases kind with
  | blank =>
    obtain rfl := Option.some.inj hafter
    obtain rfl := hspells.1
    exact (if_pos hd).trans (scan_yields (yields_blank hspells))
  | variableName =>
    obtain rfl := Option.some.inj hafter
    obtain rfl := beq_iff_eq.1 hd
    exact scan_yields (yields_behind_name hspells)
  | quotedLiteral =>
    obtain rfl := Option.some.inj hafter
    obtain rfl := beq_iff_eq.1 hd
    exact scan_yields (yields_quoted hspells)
  | equals | catchAll =>
    obtain rfl := Option.some.inj hafter
    obtain rfl := beq_iff_eq.1 hd
    exact scan_yields (yields_symbol hspells)
  | patternOpen =>
    obtain rfl := Option.some.inj hafter
    obtain ⟨rfl, h⟩ := hspells
    obtain ⟨rfl, rfl⟩ := List.cons.inj h
    exact scan_yields (yields_take_iff.2 ⟨rfl, rfl, rfl⟩)
  | expressionOpen =>
    obtain rfl := Option.some.inj hafter
    obtain ⟨rfl, h⟩ := hspells
    obtain ⟨rfl, rfl⟩ := List.cons.inj h
    -- two braces would open a pattern
    exact (scanHeader_expressionOpen (hopen rfl)).trans (scan_yields (yields_take_iff.2
      ⟨rfl, rfl, rfl⟩))
  | inputKeyword | localKeyword | matchKeyword =>
    obtain rfl := Option.some.inj hafter
    obtain rfl := beq_iff_eq.1 hd
    obtain ⟨hname, rfl⟩ := hspells
    exact scanKeyword_of_spells hname
  | reservedKeyword =>
    obtain rfl := Option.some.inj hafter
    obtain rfl := beq_iff_eq.1 hd
    have h := scanKeyword_of_spells hspells.1
    rw [keyword_of_reserved hspells.2] at h
    exact h
  | numberLiteral =>
    obtain rfl := Option.some.inj hafter
    obtain ⟨rfl, hnumber⟩ := hspells
    exact (scanHeader_number hd _).trans (scan_yields (yields_number_iff.2 ⟨rfl, rfl, hnumber⟩))
  | nameLiteral =>
    obtain rfl := Option.some.inj hafter
    obtain ⟨rfl, hname⟩ := hspells
    exact (scanHeader_name hd _).trans (scan_yields (yields_name_iff.2 ⟨rfl, rfl, hname⟩))
  | _ => cases hafter

variable {around : Surroundings} {state : ExpressionState}

theorem scanExpression_number {c : Char} (hc : beginsNumber c = true) (rest : List Char) :
    scanExpression around state c rest = Lexeme.scan .numberLiteral
      (.expression around { state with atStart := false, awaitsValue := false }) number
      (c :: rest) := by
  have hother : ∀ d ∈ ['}', '#', '/', '$', ':', '@', '=', '|'], (c == d) = false :=
    forall_beq_false_of hc (by decide)
  simp only [List.forall_mem_cons] at hother
  simp only [scanExpression, not_isBlank hc (by decide), hother, Bool.false_and,
    Bool.false_eq_true, if_false]
  exact if_pos hc

theorem scanExpression_name {c : Char} (hc : isNameStart c = true) (rest : List Char) :
    scanExpression around state c rest =
      if state.takesOptions && !state.awaitsValue then
        Lexeme.scan .optionName (.expression around { state with atStart := false }) identifier
          (c :: rest)
      else Lexeme.scan .nameLiteral
        (.expression around { state with atStart := false, awaitsValue := false })
        (name .missingName) (c :: rest) := by
  have hother : ∀ d ∈ ['}', '#', '/', '$', ':', '@', '=', '|', '-'], (c == d) = false :=
    forall_beq_false_of hc (by decide)
  simp only [List.forall_mem_cons] at hother
  simp only [scanExpression, not_isBlank hc (by decide), not_isDigit hc (by decide), hother,
    Bool.or_false, Bool.false_and, Bool.false_eq_true, if_false]
  exact if_pos hc

theorem scanExpression_reservedSigil {c : Char} (hc : isReservedSigil c = true)
    (rest : List Char) : scanExpression around state c rest = Lexeme.scan .reservedSigil
      (.reservedDirective around { state with atStart := false }) (take 1) (c :: rest) := by
  simp only [isReservedSigil, Bool.or_eq_true, beq_iff_eq] at hc
  rcases hc with ((((((rfl | rfl) | rfl) | rfl) | rfl) | rfl) | rfl) | rfl <;> rfl

theorem scanExpression_privateSigil {c : Char} (hc : isPrivateSigil c = true)
    (rest : List Char) : scanExpression around state c rest = Lexeme.scan .privateSigil
      (.reservedDirective around { state with atStart := false }) (take 1) (c :: rest) := by
  simp only [isPrivateSigil, Bool.or_eq_true, beq_iff_eq] at hc
  rcases hc with rfl | rfl <;> rfl

/-- Markup begins at the start of an expression only. -/
theorem scanExpression_markup {kind : TokenKind} {sigil : Char}
    (hkind : (kind, sigil) = (.markupOpen, '#') ∨ (kind, sigil) = (.markupClose, '/'))
    (hstart : state.atStart = true) (rest : List Char) :
    scanExpression around state sigil rest = Lexeme.scan kind
      (.expression around
        { state with atStart := false, inMarkup := true, takesOptions := true })
      (behind identifier) (sigil :: rest) := by
  rcases hkind with h | h
  all_goals
    obtain ⟨rfl, rfl⟩ := Prod.mk.inj h
    exact if_pos (by rw [hstart]; rfl)

/-- A slash before a closing brace closes markup, behind its start. -/
theorem scanExpression_selfClose {rest : List Char} (hmarkup : state.inMarkup = true)
    (hstart : state.atStart = false) (hrest : rest.head? = some '}') :
    scanExpression around state '/' rest = Lexeme.scan .selfClose
      (.expression around { state with atStart := false }) (take 1) ('/' :: rest) := by
  have hbegins : ¬ ('/' == '/' && state.atStart) = true := by
    rw [hstart]
    decide
  have hcloses : ('/' == '/' && state.inMarkup && rest.head? == some '}') = true := by
    rw [hmarkup, hrest]
    rfl
  exact (if_neg hbegins).trans (if_pos hcloses)

theorem scanExpression_of_spells {kind : TokenKind} {c : Char}
    {rest taken value behind : List Char} (hspells : kind.Spells taken value behind)
    (htext : taken ++ behind = c :: rest)
    (hafter : afterExpression around state kind = some next) :
    scanExpression around state c rest = ⟨taken, behind, .ok ⟨kind, value, next⟩⟩ := by
  obtain ⟨d, later, rfl, hd⟩ := hspells.beginsWith
  rw [List.cons_append, List.cons.injEq] at htext
  obtain ⟨rfl, rfl⟩ := htext
  cases kind with
  | blank =>
    obtain rfl := Option.some.inj hafter
    obtain rfl := hspells.1
    exact (if_pos hd).trans (scan_yields (yields_blank hspells))
  | expressionClose | equals =>
    obtain rfl := Option.some.inj hafter
    obtain rfl := beq_iff_eq.1 hd
    exact scan_yields (yields_symbol hspells)
  | markupOpen =>
    obtain ⟨hstart, hnext⟩ := Option.ite_none_right_eq_some.1 hafter
    obtain rfl := Option.some.inj hnext
    obtain rfl := beq_iff_eq.1 hd
    exact (scanExpression_markup (.inl rfl) hstart _).trans
      (scan_yields (yields_behind_identifier hspells))
  | markupClose =>
    obtain ⟨hstart, hnext⟩ := Option.ite_none_right_eq_some.1 hafter
    obtain rfl := Option.some.inj hnext
    obtain rfl := beq_iff_eq.1 hd
    exact (scanExpression_markup (.inr rfl) hstart _).trans
      (scan_yields (yields_behind_identifier hspells))
  | selfClose =>
    obtain ⟨hmarkup, hnext⟩ := Option.ite_none_right_eq_some.1 hafter
    obtain rfl := Option.some.inj hnext
    obtain ⟨rfl, h, hhead⟩ := hspells
    obtain ⟨rfl, rfl⟩ := List.cons.inj h
    rw [Bool.and_eq_true, Bool.not_eq_true'] at hmarkup
    exact (scanExpression_selfClose hmarkup.1 hmarkup.2 hhead).trans
      (scan_yields (yields_take_iff.2 ⟨rfl, rfl, rfl⟩))
  | variableName =>
    obtain rfl := Option.some.inj hafter
    obtain rfl := beq_iff_eq.1 hd
    exact scan_yields (yields_behind_name hspells)
  | functionName | attributeName =>
    obtain rfl := Option.some.inj hafter
    obtain rfl := beq_iff_eq.1 hd
    exact scan_yields (yields_behind_identifier hspells)
  | quotedLiteral =>
    obtain rfl := Option.some.inj hafter
    obtain rfl := beq_iff_eq.1 hd
    exact scan_yields (yields_quoted hspells)
  | numberLiteral =>
    obtain rfl := Option.some.inj hafter
    obtain ⟨rfl, hnumber⟩ := hspells
    exact (scanExpression_number hd _).trans (scan_yields (yields_number_iff.2
      ⟨rfl, rfl, hnumber⟩))
  | optionName =>
    obtain ⟨hoption, hnext⟩ := Option.ite_none_right_eq_some.1 hafter
    obtain rfl := Option.some.inj hnext
    obtain ⟨rfl, hidentifier⟩ := hspells
    exact ((scanExpression_name hd _).trans (if_pos hoption)).trans (scan_yields
      (yields_identifier_iff.2 ⟨rfl, rfl, hidentifier⟩))
  | nameLiteral =>
    obtain ⟨hoption, hnext⟩ := Option.ite_none_left_eq_some.1 hafter
    obtain rfl := Option.some.inj hnext
    obtain ⟨rfl, hname⟩ := hspells
    exact ((scanExpression_name hd _).trans (if_neg hoption)).trans (scan_yields
      (yields_name_iff.2 ⟨rfl, rfl, hname⟩))
  | reservedSigil =>
    obtain rfl := Option.some.inj hafter
    obtain ⟨rfl, c, hc, h⟩ := hspells
    obtain ⟨rfl, rfl⟩ := List.cons.inj h
    exact (scanExpression_reservedSigil hc _).trans (scan_yields (yields_take_iff.2
      ⟨rfl, rfl, rfl⟩))
  | privateSigil =>
    obtain rfl := Option.some.inj hafter
    obtain ⟨rfl, c, hc, h⟩ := hspells
    obtain ⟨rfl, rfl⟩ := List.cons.inj h
    exact (scanExpression_privateSigil hc _).trans (scan_yields (yields_take_iff.2
      ⟨rfl, rfl, rfl⟩))
  | _ => cases hafter

theorem not_continuesBody_of_afterReserved {within : Context} {kind : TokenKind} {c : Char}
    (hbegins : kind.begins c = true) (hafter : afterReserved within after kind = some next)
    (htext : after .text = none) :
    kind = .blank ∨ kind = .quotedLiteral ∨ kind = .reservedText ∨
      continuesBody c = false ∧ after kind = some next := by
  cases kind with
  | blank => exact .inl rfl
  | quotedLiteral => exact .inr (.inl rfl)
  | reservedText => exact .inr (.inr (.inl rfl))
  | text =>
    rw [show after .text = some next from hafter] at htext
    cases htext
  | expressionOpen | expressionClose | patternOpen | patternClose | attributeName =>
    obtain rfl := beq_iff_eq.1 hbegins
    exact .inr (.inr (.inr ⟨by decide, hafter⟩))
  | _ => cases hafter

theorem scanReserved_of_spells {within : Context} {scanAfter : Char → List Char → Scan Lexeme}
    {kind : TokenKind} {c : Char} {rest taken value behind : List Char}
    (hspells : kind.Spells taken value behind) (htext : taken ++ behind = c :: rest)
    (hafter : afterReserved within after kind = some next) (hnone : after .text = none)
    (hscan : after kind = some next →
      scanAfter c rest = ⟨taken, behind, .ok ⟨kind, value, next⟩⟩) :
    scanReserved within scanAfter c rest = ⟨taken, behind, .ok ⟨kind, value, next⟩⟩ := by
  obtain ⟨d, later, rfl, hd⟩ := hspells.beginsWith
  rw [List.cons_append, List.cons.injEq] at htext
  obtain ⟨rfl, rfl⟩ := htext
  rcases not_continuesBody_of_afterReserved hd hafter hnone with rfl | rfl | rfl | ⟨hc, hkind⟩
  · obtain rfl := Option.some.inj hafter
    obtain rfl := hspells.1
    exact (if_pos hd).trans (scan_yields (yields_blank hspells))
  · obtain rfl := Option.some.inj hafter
    obtain rfl := beq_iff_eq.1 hd
    exact scan_yields (yields_quoted hspells)
  · obtain rfl := Option.some.inj hafter
    have hblank : isBlank d = false := stopsAt_cons.1 hspells.2
    have hbar : (d == '|') = false := beq_false_of (p := goesOn isReservedChar) hd '|' (by decide)
    have hplain : (d == '\\' || isReservedChar d) = true := by
      rw [Bool.or_comm]
      exact hd
    simp only [scanReserved, hblank, hbar, hplain, Bool.false_eq_true, if_false, if_true]
    exact scan_yields ((yields_decoded_iff (by decide)).2 ⟨rfl, hspells.1.2⟩)
  · simp only [continuesBody, Bool.or_eq_false_iff] at hc
    simp only [scanReserved, hc, Bool.or_self, Bool.false_eq_true, if_false]
    exact hscan hkind

/-- A spelling of a lexeme that there may be is scanned as that lexeme. -/
theorem scan_of_spells {context : Context} {kind : TokenKind} {c : Char}
    {rest taken value behind : List Char} (hspells : kind.Spells taken value behind)
    (htext : taken ++ behind = c :: rest) (hafter : context.after kind = some next)
    (hopen : context.opensPattern = true → kind = .expressionOpen → behind.head? ≠ some '{') :
    context.scan c rest = ⟨taken, behind, .ok ⟨kind, value, next⟩⟩ := by
  cases context with
  | start => cases hafter
  | message => exact scanPattern_of_spells hspells htext hafter
  | quotedPattern => exact scanPattern_of_spells hspells htext hafter
  | header => exact scanHeader_of_spells hspells htext hafter (hopen rfl)
  | reservedStatement =>
    exact scanReserved_of_spells hspells htext hafter rfl fun h =>
      scanHeader_of_spells hspells htext h (hopen rfl)
  | expression around state => exact scanExpression_of_spells hspells htext hafter
  | reservedDirective around state =>
    exact scanReserved_of_spells hspells htext hafter rfl fun h =>
      scanExpression_of_spells hspells htext h

end Context

end MessageFormat
