import MessageFormat.Proofs.RoundTrip

/-!
# The discipline of brackets

Where a token may stand is told by the tokens before it: expressions do not nest, quoted patterns
stand outside of expressions, and every other token has its place inside or outside of them.  The
context of a scanner is what it remembers of the tokens, so that the discipline is an invariant.

* `Context.Follows` : the context says what is open among the tokens behind which it stands;
* `Context.Follows.concat` : a step over a token keeps this;
* `disciplined_tokenizeAll` : the tokens of every source keep the discipline.
-/

namespace MessageFormat

open Scanner

/-! ### What is open among tokens -/

/-- A token that `begins` something stands among the tokens, and all behind it goes on with it. -/
def Since (begins : List Token → Token → Prop) (goesOn : TokenKind → Prop)
    (before : List Token) : Prop :=
  ∃ front token behind, before = front ++ token :: behind ∧ begins front token ∧
    ∀ later ∈ behind, goesOn later.kind

/-- An opening brace stands among the tokens, and no closing brace behind it. -/
def InExpression : List Token → Prop :=
  Since (fun _ token => token.kind = .expressionOpen) (· ≠ .expressionClose)

/-- Two opening braces stand among the tokens, and no two closing braces behind them. -/
def InPattern : List Token → Prop :=
  Since (fun _ token => token.kind = .patternOpen) (· ≠ .patternClose)

/-- An opening brace stands among the tokens, and nothing but blanks behind it. -/
def AtExpressionStart : List Token → Prop :=
  Since (fun _ token => token.kind = .expressionOpen) (· = .blank)

/-- An expression that is not yet closed begins with markup. -/
def InMarkup : List Token → Prop :=
  Since (fun front token => AtExpressionStart front ∧
    (token.kind = .markupOpen ∨ token.kind = .markupClose)) (· ≠ .expressionClose)

section Since

variable {begins : List Token → Token → Prop} {goesOn : TokenKind → Prop}

theorem not_since_nil : ¬ Since begins goesOn [] := by
  rintro ⟨front, token, behind, h, -⟩
  cases front <;> cases h

/-- What is open behind a token was opened by it, or before it and goes on with it. -/
theorem since_concat_iff {before : List Token} {token : Token} :
    Since begins goesOn (before ++ [token]) ↔
      begins before token ∨ Since begins goesOn before ∧ goesOn token.kind := by
  constructor
  · rintro ⟨front, first, behind, h, hbegins, hgoesOn⟩
    rcases List.eq_nil_or_concat behind with rfl | ⟨others, last, rfl⟩
    · obtain ⟨rfl, hfirst⟩ := List.append_inj' h rfl
      obtain rfl := List.singleton_inj.1 hfirst
      exact .inl hbegins
    · rw [List.concat_eq_append, ← List.cons_append, ← List.append_assoc] at h
      obtain ⟨rfl, hlast⟩ := List.append_inj' h rfl
      obtain rfl := List.singleton_inj.1 hlast
      rw [List.concat_eq_append, List.forall_mem_append] at hgoesOn
      exact .inr ⟨⟨front, first, others, rfl, hbegins, hgoesOn.1⟩,
        hgoesOn.2 token List.mem_cons_self⟩
  · rintro (hbegins | ⟨⟨front, first, behind, rfl, hbegins, hgoesOn⟩, hlast⟩)
    · exact ⟨before, token, [], rfl, hbegins, nofun⟩
    · refine ⟨front, first, behind ++ [token], by simp, hbegins, ?_⟩
      exact List.forall_mem_append.2 ⟨hgoesOn, by simpa using hlast⟩

end Since

/-! ### The discipline -/

/-- Whether the kind stands in complex messages only: a keyword, or what delimits a quoted
pattern. -/
def TokenKind.isOfComplex : TokenKind → Bool
  | .patternOpen | .patternClose => true
  | kind => kind.isKeyword

/-- A token of the kind may stand behind the tokens. -/
def TokenKind.Fits (kind : TokenKind) (before : List Token) : Prop :=
  match kind with
  | .expressionOpen | .text => ¬ InExpression before
  | .patternOpen | .inputKeyword | .localKeyword | .matchKeyword | .reservedKeyword | .catchAll =>
    ¬ InExpression before ∧ ¬ InPattern before
  | .patternClose => ¬ InExpression before ∧ InPattern before
  | .expressionClose | .functionName | .optionName | .attributeName | .reservedSigil
  | .privateSigil => InExpression before
  | .markupOpen | .markupClose => InExpression before ∧ AtExpressionStart before
  | .selfClose => InExpression before ∧ InMarkup before
  | .endOfInput | .fault => False
  | .variableName | .quotedLiteral | .nameLiteral | .numberLiteral | .equals | .blank
  | .reservedText => True

theorem TokenKind.Fits.not_inExpression {kind : TokenKind} {before : List Token}
    (h : kind.Fits before) (hkind : kind.isOfComplex = true) : ¬ InExpression before := by
  cases kind with
  | patternOpen | patternClose | inputKeyword | localKeyword | matchKeyword | reservedKeyword =>
    exact h.1
  | _ => cases hkind

/-- The tokens keep the discipline of brackets. -/
structure Disciplined (tokens : List Token) : Prop where
  /-- Each token may stand behind those before it. -/
  fits : ∀ before token behind, tokens = before ++ token :: behind → token.kind.Fits before
  /-- In a complex message, text stands in quoted patterns only. -/
  text_inPattern : (∃ token ∈ tokens, token.kind.isOfComplex = true) →
    ∀ before token behind, tokens = before ++ token :: behind → token.kind = .text →
      InPattern before
  /-- The first token that is no blank tells whether the message is a complex one. -/
  simple : ∀ first ∈ tokens.find? (!·.isBlank), first.kind.isKeyword = false →
    first.kind ≠ .patternOpen → ∀ token ∈ tokens, token.kind.isOfComplex = false
  /-- No two runs of blanks and no two runs of text stand side by side. -/
  apart : ∀ before a b behind, tokens = before ++ a :: b :: behind →
    (a.kind = .blank → b.kind ≠ .blank) ∧ (a.kind = .text → b.kind ≠ .text)

/-! ### What a context remembers -/

/-- What a scanner remembers of the tokens behind which it stands. -/
structure Memory where
  /-- An expression is open. -/
  inExpression : Bool
  /-- A quoted pattern is open. -/
  inPattern : Bool
  /-- An expression is open, and there are but blanks in it. -/
  atStart : Bool
  /-- An expression is open, and it began as markup. -/
  inMarkup : Bool
  /-- The message is a simple one. -/
  inSimple : Bool

/-- What is remembered behind one more token. -/
def Memory.after (memory : Memory) (kind : TokenKind) : Memory where
  inExpression := kind = .expressionOpen || memory.inExpression && kind ≠ .expressionClose
  inPattern := kind = .patternOpen || memory.inPattern && kind ≠ .patternClose
  atStart := kind = .expressionOpen || memory.atStart && kind = .blank
  inMarkup := memory.atStart && (kind = .markupOpen || kind = .markupClose) ||
    memory.inMarkup && kind ≠ .expressionClose
  inSimple := memory.inSimple

namespace Context

/-- What a context remembers. -/
def memory : Context → Memory
  | start | header | reservedStatement => ⟨false, false, false, false, false⟩
  | message => ⟨false, false, false, false, true⟩
  | quotedPattern => ⟨false, true, false, false, false⟩
  | expression around state =>
    ⟨true, around = .quotedPattern, state.atStart, state.inMarkup, around = .message⟩
  | reservedDirective around state =>
    ⟨true, around = .quotedPattern, false, state.inMarkup, around = .message⟩

/-- A step over a token of the kind leads on, and to what is remembered behind that token. -/
structure Steps (context : Context) (kind : TokenKind) (next : Context) : Prop where
  /-- The message has begun. -/
  ne_start : next ≠ .start
  /-- What is remembered is told by the kind. -/
  memory_eq : next.memory = context.memory.after kind

variable {context next : Context} {kind : TokenKind} {around : Surroundings}

theorem steps_afterPattern (around : Surroundings) (h : afterPattern around kind = some next) :
    around.context.Steps kind next := by
  cases kind with
  | text | expressionOpen =>
    cases h
    cases around <;> exact ⟨nofun, rfl⟩
  | patternClose =>
    obtain ⟨rfl, hnext⟩ := Option.ite_none_right_eq_some.1 h
    cases hnext
    exact ⟨nofun, rfl⟩
  | _ => cases h

theorem steps_afterHeader (h : afterHeader kind = some next) : header.Steps kind next := by
  cases kind with
  | blank | variableName | equals | catchAll | quotedLiteral | numberLiteral | nameLiteral
  | inputKeyword | localKeyword | matchKeyword | reservedKeyword | patternOpen | expressionOpen =>
    cases h
    exact ⟨nofun, rfl⟩
  | _ => cases h

theorem steps_afterExpression {state : ExpressionState}
    (h : afterExpression around state kind = some next) :
    (expression around state).Steps kind next := by
  cases kind with
  | expressionClose =>
    cases h
    cases around <;> exact ⟨nofun, by simp [memory, Memory.after, Surroundings.context]⟩
  | markupOpen | markupClose | selfClose | optionName =>
    obtain ⟨hstate, hnext⟩ := Option.ite_none_right_eq_some.1 h
    cases hnext
    exact ⟨nofun, by simp_all [memory, Memory.after]⟩
  | nameLiteral =>
    obtain ⟨-, hnext⟩ := Option.ite_none_left_eq_some.1 h
    cases hnext
    exact ⟨nofun, by simp [memory, Memory.after]⟩
  | blank | variableName | quotedLiteral | numberLiteral | functionName | attributeName | equals
  | reservedSigil | privateSigil =>
    cases h
    exact ⟨nofun, by simp [memory, Memory.after]⟩
  | _ => cases h

/-- A reserved body is in what it stands in, but no longer at the start of that. -/
theorem steps_afterReserved {within outer : Context} {after : TokenKind → Option Context}
    (houter : after kind = some next → outer.Steps kind next) (hstart : within ≠ .start)
    (hwithin : within.memory = { outer.memory with atStart := false })
    (h : afterReserved within after kind = some next) : within.Steps kind next := by
  cases kind with
  | blank | quotedLiteral | reservedText =>
    cases h
    exact ⟨hstart, by simp [hwithin, Memory.after]⟩
  | expressionOpen | expressionClose | patternOpen | attributeName | text | patternClose =>
    obtain ⟨hnext, hmemory⟩ := houter h
    exact ⟨hnext, by simp [hmemory, hwithin, Memory.after]⟩
  | _ => cases h

/-- **What a step leads to**, whatever the context. -/
theorem steps_after (h : context.after kind = some next) : context.Steps kind next := by
  cases context with
  | start => cases h
  | message => exact steps_afterPattern .message h
  | quotedPattern => exact steps_afterPattern .quotedPattern h
  | header => exact steps_afterHeader h
  | reservedStatement => exact steps_afterReserved steps_afterHeader nofun rfl h
  | expression around state => exact steps_afterExpression h
  | reservedDirective around state => exact steps_afterReserved steps_afterExpression nofun rfl h

/-- The context remembers what is open among the tokens. -/
structure Follows (context : Context) (before : List Token) : Prop where
  /-- It is known whether the message is a complex one. -/
  ne_start : context ≠ .start
  /-- It remembers an open expression. -/
  inExpression_iff : context.memory.inExpression = true ↔ InExpression before
  /-- It remembers an open quoted pattern. -/
  inPattern_iff : context.memory.inPattern = true ↔ InPattern before
  /-- It remembers that there are but blanks in the expression. -/
  atStart_iff : context.memory.atStart = true ↔ AtExpressionStart before
  /-- It remembers that the expression began as markup. -/
  inMarkup_iff : context.memory.inMarkup = true ↔ InMarkup before

/-- At first there is nothing to remember, be the message a simple or a complex one. -/
theorem follows_nil {complex : Bool} : (if complex then header else message).Follows [] := by
  constructor
  · cases complex <;> nofun
  all_goals
    refine iff_of_false ?_ not_since_nil
    cases complex <;> nofun

/-- **A step keeps what is remembered in line with the tokens.** -/
theorem Follows.concat {before : List Token} {token : Token} (h : context.Follows before)
    (hafter : context.after token.kind = some next) : next.Follows (before ++ [token]) := by
  obtain ⟨hnext, hmemory⟩ := steps_after hafter
  constructor
  · exact hnext
  · rw [InExpression, since_concat_iff, ← InExpression, ← h.inExpression_iff, hmemory]
    simp [Memory.after]
  · rw [InPattern, since_concat_iff, ← InPattern, ← h.inPattern_iff, hmemory]
    simp [Memory.after]
  · rw [AtExpressionStart, since_concat_iff, ← AtExpressionStart, ← h.atStart_iff, hmemory]
    simp [Memory.after]
  · rw [InMarkup, since_concat_iff, ← InMarkup, ← h.atStart_iff, ← h.inMarkup_iff, hmemory]
    simp [Memory.after]

/-! ### What a context allows -/

variable {before : List Token}

theorem Follows.not_inExpression (h : context.Follows before)
    (hmemory : context.memory.inExpression = false) : ¬ InExpression before :=
  mt h.inExpression_iff.2 (Bool.eq_false_iff.1 hmemory)

theorem Follows.not_inPattern (h : context.Follows before)
    (hmemory : context.memory.inPattern = false) : ¬ InPattern before :=
  mt h.inPattern_iff.2 (Bool.eq_false_iff.1 hmemory)

theorem fits_afterPattern (hexpression : ¬ InExpression before)
    (hpattern : around = .quotedPattern → InPattern before)
    (h : afterPattern around kind = some next) : kind.Fits before := by
  cases kind with
  | text | expressionOpen => exact hexpression
  | patternClose => exact ⟨hexpression, hpattern (Option.ite_none_right_eq_some.1 h).1⟩
  | _ => cases h

theorem fits_afterHeader (hexpression : ¬ InExpression before) (hpattern : ¬ InPattern before)
    (h : afterHeader kind = some next) : kind.Fits before := by
  cases kind with
  | expressionOpen => exact hexpression
  | patternOpen | inputKeyword | localKeyword | matchKeyword | reservedKeyword | catchAll =>
    exact ⟨hexpression, hpattern⟩
  | blank | variableName | equals | quotedLiteral | numberLiteral | nameLiteral => trivial
  | _ => cases h

theorem fits_afterExpression {state : ExpressionState} (hexpression : InExpression before)
    (hstart : kind = .markupOpen ∨ kind = .markupClose → state.atStart = true →
      AtExpressionStart before)
    (hmarkup : state.inMarkup = true → InMarkup before)
    (h : afterExpression around state kind = some next) : kind.Fits before := by
  cases kind with
  | expressionClose | functionName | optionName | attributeName | reservedSigil | privateSigil =>
    exact hexpression
  | markupOpen | markupClose =>
    exact ⟨hexpression, hstart (by simp) (Option.ite_none_right_eq_some.1 h).1⟩
  | selfClose =>
    obtain ⟨hstate, -⟩ := Option.ite_none_right_eq_some.1 h
    exact ⟨hexpression, hmarkup (Bool.and_eq_true_iff.1 hstate).1⟩
  | blank | variableName | equals | quotedLiteral | numberLiteral | nameLiteral => trivial
  | _ => cases h

theorem fits_afterReserved {within : Context} {after : TokenKind → Option Context}
    (houter : after kind = some next → kind.Fits before)
    (h : afterReserved within after kind = some next) : kind.Fits before := by
  cases kind with
  | blank | quotedLiteral | reservedText => trivial
  | expressionOpen | expressionClose | patternOpen | attributeName | text | patternClose =>
    exact houter h
  | _ => cases h

/-- **Where a context allows a token, the token may stand behind those before it.** -/
theorem Follows.fits (h : context.Follows before) (hafter : context.after kind = some next) :
    kind.Fits before := by
  cases context with
  | start => cases hafter
  | message =>
    have hpattern : Surroundings.message = .quotedPattern → InPattern before := nofun
    exact fits_afterPattern (h.not_inExpression rfl) hpattern hafter
  | quotedPattern =>
    exact fits_afterPattern (h.not_inExpression rfl) (fun _ => h.inPattern_iff.1 rfl) hafter
  | header => exact fits_afterHeader (h.not_inExpression rfl) (h.not_inPattern rfl) hafter
  | reservedStatement =>
    exact fits_afterReserved (fits_afterHeader (h.not_inExpression rfl) (h.not_inPattern rfl))
      hafter
  | expression around state =>
    exact fits_afterExpression (h.inExpression_iff.1 rfl) (fun _ => h.atStart_iff.1)
      h.inMarkup_iff.1 hafter
  | reservedDirective around state =>
    -- a reserved body allows no markup, so that the start of the expression does not matter
    have hbody : ¬ (kind = .markupOpen ∨ kind = .markupClose) := by
      rintro (rfl | rfl) <;> cases hafter
    exact fits_afterReserved (fits_afterExpression (h.inExpression_iff.1 rfl)
      (fun hkind => absurd hkind hbody) h.inMarkup_iff.1) hafter

/-- In a simple message there is nothing that stands in complex messages only. -/
theorem Follows.isOfComplex_eq_false (h : context.Follows before)
    (hafter : context.after kind = some next) (hsimple : context.memory.inSimple = true) :
    kind.isOfComplex = false := by
  cases context with
  | message =>
    cases kind with
    | text | expressionOpen => rfl
    | _ => cases hafter
  | expression | reservedDirective =>
    exact Bool.eq_false_iff.2 fun hkind =>
      (h.fits hafter).not_inExpression hkind (h.inExpression_iff.1 rfl)
  | start | quotedPattern | header | reservedStatement => cases hsimple

/-- In a complex message, text stands in quoted patterns only. -/
theorem Follows.inPattern (h : context.Follows before) (hafter : context.after .text = some next)
    (hsimple : context.memory.inSimple = false) : InPattern before := by
  cases context with
  | quotedPattern => exact h.inPattern_iff.1 rfl
  | message => cases hsimple
  | start | header | reservedStatement | expression | reservedDirective => cases hafter

/-! ### The first token of a complex message -/

theorem isKeyword_keyword (name : List Char) : (keyword name).1.isKeyword = true := by
  unfold keyword
  split_ifs <;> rfl

/-- What begins a complex message is a keyword or opens a quoted pattern, but for blanks ahead. -/
theorem scanHeader_of_beginsComplex {c : Char} {rest taken behind : List Char} {lexeme : Lexeme}
    (hbegins : beginsComplex (c :: rest) = true)
    (h : scanHeader c rest = ⟨taken, behind, .ok lexeme⟩) :
    lexeme.kind = .blank ∧ lexeme.next = .header ∧ beginsComplex behind = true ∨
      lexeme.kind.isKeyword = true ∨ lexeme.kind = .patternOpen := by
  by_cases hblank : isBlank c = true
  · rw [scanHeader, if_pos hblank] at h
    obtain ⟨value, hyields, rfl⟩ := lexemeScan_eq_iff.1 h
    obtain ⟨htext, rfl, hall, -⟩ := yields_takeWhile_iff.1 hyields
    refine .inl ⟨rfl, rfl, ?_⟩
    rwa [htext, beginsComplex, List.dropWhile_append_of_pos hall] at hbegins
  · rw [beginsComplex, List.dropWhile_cons_of_neg hblank] at hbegins
    split at hbegins
    · -- a point, which begins a keyword
      rename_i later htext
      obtain ⟨rfl, rfl⟩ := List.cons.inj htext
      obtain ⟨_, name, _, _, -, hpure, -⟩ := yields_bind_iff.1
        (show scanKeyword ('.' :: rest) = ⟨taken, behind, .ok lexeme⟩ from h)
      obtain ⟨-, rfl, -⟩ := yields_pure_iff.1 hpure
      exact .inr (.inl (isKeyword_keyword name))
    · -- two opening braces, which open a quoted pattern
      rename_i later htext
      obtain ⟨rfl, rfl⟩ := List.cons.inj htext
      obtain ⟨value, -, rfl⟩ := lexemeScan_eq_iff.1
        (show Lexeme.scan .patternOpen .quotedPattern (take 2) ('{' :: '{' :: later) =
          ⟨taken, behind, .ok lexeme⟩ from h)
      exact .inr (.inr rfl)
    · cases hbegins

end Context

/-! ### Tokens of a source -/

namespace Cursor

/-- **What is remembered is kept in line with the tokens on every path.** -/
theorem Path.follows {cursor stop : Cursor} {before tokens : List Token}
    (path : Path cursor tokens stop) (h : cursor.context.Follows before) :
    stop.context.Follows (before ++ tokens) ∧
      stop.context.memory.inSimple = cursor.context.memory.inSimple := by
  induction path generalizing before with
  | nil => exact ⟨by rwa [List.append_nil], rfl⟩
  | cons hlast path ih =>
    have hafter := next_after h.ne_start hlast
    obtain ⟨hfollows, hsimple⟩ := ih (h.concat hafter)
    rw [List.append_assoc] at hfollows
    rw [(Context.steps_after hafter).memory_eq] at hsimple
    exact ⟨hfollows, hsimple⟩

/-- A token on a path is taken in a context that remembers what is open among those before it. -/
theorem Path.exists_context {cursor stop : Cursor} {before behind : List Token} {token : Token}
    (path : Path cursor (before ++ token :: behind) stop) (h : cursor.context.Follows []) :
    ∃ context next : Context, context.Follows before ∧ context.after token.kind = some next ∧
      context.memory.inSimple = cursor.context.memory.inSimple := by
  obtain ⟨middle, hfront, hbehind⟩ := path.exists_middle
  obtain ⟨hfollows, hsimple⟩ := hfront.follows h
  rw [List.nil_append] at hfollows
  cases hbehind with
  | cons hlast _ => exact ⟨_, _, hfollows, next_after hfollows.ne_start hlast, hsimple⟩

/-- In a simple message there is nothing that stands in complex messages only. -/
theorem Path.isOfComplex_eq_false {cursor stop : Cursor} {tokens : List Token}
    (path : Path cursor tokens stop) (h : cursor.context.Follows [])
    (hsimple : cursor.context.memory.inSimple = true) :
    ∀ token ∈ tokens, token.kind.isOfComplex = false := by
  intro token hmem
  obtain ⟨before, behind, rfl⟩ := List.append_of_mem hmem
  obtain ⟨context, next, hfollows, hafter, hsame⟩ := path.exists_context h
  exact hfollows.isOfComplex_eq_false hafter (hsame.trans hsimple)

/-- Where a complex message begins, there are blanks, a keyword or two opening braces. -/
theorem next_of_beginsComplex {cursor : Cursor} (hcontext : cursor.context = .header)
    (hbegins : Context.beginsComplex cursor.rest = true) (h : isLast cursor.next.1 = false) :
    cursor.next.1.kind = .blank ∧ cursor.next.2.context = .header ∧
        Context.beginsComplex cursor.next.2.rest = true ∨
      cursor.next.1.kind.isKeyword = true ∨ cursor.next.1.kind = .patternOpen := by
  obtain ⟨context, position, rest⟩ := cursor
  obtain rfl : context = .header := hcontext
  cases rest with
  | nil => cases h
  | cons c rest =>
    cases hscan : Context.header.scan c rest with
    | mk taken behind result =>
      cases result with
      | error fault =>
        rw [next_of_fault hscan] at h
        cases h
      | ok lexeme =>
        rw [next_of_scan hscan]
        exact Context.scanHeader_of_beginsComplex hbegins hscan

/-- The first token of a complex message that is no blank says that it is one. -/
theorem Path.find?_of_beginsComplex {cursor stop : Cursor} {tokens : List Token}
    (path : Path cursor tokens stop) (hcontext : cursor.context = .header)
    (hbegins : Context.beginsComplex cursor.rest = true) :
    ∀ first ∈ tokens.find? (!·.isBlank),
      first.kind.isKeyword = true ∨ first.kind = .patternOpen := by
  induction path with
  | nil => nofun
  | @cons cursor stop tokens hlast path ih =>
    rcases next_of_beginsComplex hcontext hbegins hlast with ⟨hkind, hnext, hbehind⟩ | hkind
    · -- behind blanks, the rest of the text still begins a complex message
      rw [List.find?_cons_of_neg (by simp [Token.isBlank, hkind])]
      exact ih hnext hbehind
    · have hblank : ¬ cursor.next.1.isBlank = true := by
        intro hblank
        rw [beq_iff_eq.1 hblank] at hkind
        rcases hkind with hkind | hkind <;> cases hkind
      rw [List.find?_cons_of_pos (by simp [hblank])]
      rintro _ ⟨⟩
      exact hkind

/-- The tokens on a path from the start of a message keep the discipline. -/
theorem Path.disciplined {position : Position} {text : List Char} {stop : Cursor}
    {tokens : List Token}
    (path : Path ⟨if Context.beginsComplex text then .header else .message, position, text⟩
      tokens stop) : Disciplined tokens where
  fits := by
    rintro before token behind rfl
    obtain ⟨context, next, hfollows, hafter, -⟩ := path.exists_context Context.follows_nil
    exact hfollows.fits hafter
  text_inPattern := by
    rintro ⟨other, hmem, hother⟩ before token behind rfl hkind
    obtain ⟨context, next, hfollows, hafter, hsame⟩ := path.exists_context Context.follows_nil
    rw [hkind] at hafter
    refine hfollows.inPattern hafter (Bool.eq_false_iff.2 fun hsimple => ?_)
    -- a simple message would have no such token as the other one
    have hnone := path.isOfComplex_eq_false Context.follows_nil (hsame.symm.trans hsimple)
    exact absurd hother (Bool.eq_false_iff.1 (hnone other hmem))
  simple := by
    intro first hfirst hkeyword hopen
    by_cases hbegins : Context.beginsComplex text = true
    · rw [if_pos hbegins] at path
      rcases path.find?_of_beginsComplex rfl hbegins first hfirst with hkind | hkind
      · rw [hkeyword] at hkind
        cases hkind
      · exact absurd hkind hopen
    · exact path.isOfComplex_eq_false Context.follows_nil (by rw [if_neg hbegins]; rfl)
  apart := by
    rintro before a b behind rfl
    have hlexed : Lexed (before ++ a :: b :: behind) := ⟨_, _, path.spellsOut⟩
    exact ⟨hlexed.right.not_blank_blank, hlexed.right.not_text_text⟩

end Cursor

/-- **The tokens of every source keep the discipline of brackets**, up to the end of the input or
the fault that is the last of them. -/
theorem disciplined_tokenizeAll (source : String) : ∃ tokens last,
    tokenizeAll source = tokens ++ [last] ∧ Cursor.isLast last = true ∧ Disciplined tokens := by
  obtain ⟨tokens, stop, path, hlast, htokens⟩ := Cursor.exists_path
    ⟨if Context.beginsComplex source.toList then .header else .message, .start, source.toList⟩
  exact ⟨tokens, stop.next.1, (tokenizeAll_eq source).trans htokens, hlast, path.disciplined⟩

end MessageFormat
