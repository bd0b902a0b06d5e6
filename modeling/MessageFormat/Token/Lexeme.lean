import MessageFormat.Token.Basic
import MessageFormat.Token.Scanner

/-!
# Lexemes

What the next token is depends on where it stands: an opening brace begins an expression in a
pattern and may begin a pattern in a header, and a bare name is a literal, or the name of an option.
`Context` says where a scanner stands, and `Context.scan` scans one lexeme there, which brings the
context behind it with it.

* `Context.takes_scan` : a lexeme and what follows it make up the text, and a lexeme is never empty.
-/

namespace MessageFormat

/-- What an expression stands in, and scanning returns to behind it. -/
inductive Surroundings where
  /-- The pattern of a simple message. -/
  | message
  /-- A quoted pattern. -/
  | quotedPattern
  /-- The header of a complex message. -/
  | header
deriving DecidableEq, Repr

/-- What has been seen of an expression. -/
structure ExpressionState where
  /-- Nothing but blanks so far, so that markup may begin. -/
  atStart : Bool := true
  /-- It began as markup. -/
  inMarkup : Bool := false
  /-- A bare name names an option. -/
  takesOptions : Bool := false
  /-- An equals sign awaits its value, and a bare name is that value. -/
  awaitsValue : Bool := false
deriving DecidableEq, Repr

/-- Where in a message a scanner stands. -/
inductive Context where
  /-- At the start, before it is known whether the message is a complex one. -/
  | start
  /-- In the pattern of a simple message. -/
  | message
  /-- In a quoted pattern. -/
  | quotedPattern
  /-- In a complex message, outside of its quoted patterns. -/
  | header
  /-- In the body of a reserved statement. -/
  | reservedStatement
  /-- In an expression. -/
  | expression (around : Surroundings) (state : ExpressionState)
  /-- In the body of a reserved directive of an expression. -/
  | reservedDirective (around : Surroundings) (state : ExpressionState)
deriving DecidableEq, Repr

/-- The context behind an expression. -/
def Surroundings.context : Surroundings → Context
  | message => .message
  | quotedPattern => .quotedPattern
  | header => .header

/-- One token of a message, and where a scanner stands behind it. -/
structure Lexeme where
  /-- What the token is. -/
  kind : TokenKind
  /-- What the token says. -/
  value : List Char
  /-- Where a scanner stands behind it. -/
  next : Context
deriving DecidableEq, Repr

/-- A lexeme with the value that a scanner finds. -/
def Lexeme.scan (kind : TokenKind) (next : Context) (value : Scanner (List Char)) :
    Scanner Lexeme := do
  let value ← value
  return ⟨kind, value, next⟩

/-- A run of blanks, which leaves the context as it is. -/
def Lexeme.blank (next : Context) : Scanner Lexeme :=
  scan .blank next (Scanner.takeWhile isBlank)

namespace Context

open Scanner

/-! ### Patterns -/

/-- Scans a lexeme of a pattern. -/
def scanPattern (around : Surroundings) (c : Char) (rest : List Char) : Scan Lexeme :=
  if c == '{' then
    Lexeme.scan .expressionOpen (.expression around {}) (take 1) (c :: rest)
  else if c == '}' then
    if around == .quotedPattern && rest.head? == some '}' then
      Lexeme.scan .patternClose .header (take 2) (c :: rest)
    else fail .bareClose (c :: rest)
  else Lexeme.scan .text around.context patternText (c :: rest)

/-! ### The header of a complex message -/

/-- The kind of a keyword, and the context behind it. -/
def keyword (name : List Char) : TokenKind × Context :=
  if name == "input".toList then (.inputKeyword, .header)
  else if name == "local".toList then (.localKeyword, .header)
  else if name == "match".toList then (.matchKeyword, .header)
  else (.reservedKeyword, .reservedStatement)

/-- A keyword behind its point. -/
def scanKeyword : Scanner Lexeme := do
  let name ← behind (name .missingKeyword)
  return ⟨(keyword name).1, name, (keyword name).2⟩

/-- Scans a lexeme of the header. -/
def scanHeader (c : Char) (rest : List Char) : Scan Lexeme :=
  let text := c :: rest
  if isBlank c then Lexeme.blank .header text
  else if c == '.' then scanKeyword text
  else if c == '{' then
    if rest.head? == some '{' then Lexeme.scan .patternOpen .quotedPattern (take 2) text
    else Lexeme.scan .expressionOpen (.expression .header {}) (take 1) text
  else if c == '$' then Lexeme.scan .variableName .header (behind (name .missingVariable)) text
  else if c == '=' then Lexeme.scan .equals .header (take 1) text
  else if c == '*' then Lexeme.scan .catchAll .header (take 1) text
  else if c == '|' then Lexeme.scan .quotedLiteral .header quoted text
  else if c == '-' || isDigit c then Lexeme.scan .numberLiteral .header number text
  else if isNameStart c then Lexeme.scan .nameLiteral .header (name .missingName) text
  else fail (.illegalInHeader c) text

/-! ### Expressions -/

/-- Scans a lexeme of an expression. -/
def scanExpression (around : Surroundings) (state : ExpressionState) (c : Char)
    (rest : List Char) : Scan Lexeme :=
  let text := c :: rest
  let begun := { state with atStart := false }
  let valued := { begun with awaitsValue := false }
  let markup := { begun with inMarkup := true, takesOptions := true }
  if isBlank c then Lexeme.blank (.expression around state) text
  else if c == '}' then Lexeme.scan .expressionClose around.context (take 1) text
  else if c == '#' && state.atStart then
    Lexeme.scan .markupOpen (.expression around markup) (behind identifier) text
  else if c == '/' && state.atStart then
    Lexeme.scan .markupClose (.expression around markup) (behind identifier) text
  else if c == '/' && state.inMarkup && rest.head? == some '}' then
    Lexeme.scan .selfClose (.expression around begun) (take 1) text
  else if c == '$' then
    Lexeme.scan .variableName (.expression around valued) (behind (name .missingVariable)) text
  else if c == ':' then
    Lexeme.scan .functionName (.expression around { begun with takesOptions := true })
      (behind identifier) text
  else if c == '@' then
    Lexeme.scan .attributeName (.expression around { valued with takesOptions := false })
      (behind identifier) text
  else if c == '=' then
    Lexeme.scan .equals (.expression around { begun with awaitsValue := true }) (take 1) text
  else if c == '|' then Lexeme.scan .quotedLiteral (.expression around valued) quoted text
  else if c == '-' || isDigit c then
    Lexeme.scan .numberLiteral (.expression around valued) number text
  else if isNameStart c then
    if state.takesOptions && !state.awaitsValue then
      Lexeme.scan .optionName (.expression around begun) identifier text
    else Lexeme.scan .nameLiteral (.expression around valued) (name .missingName) text
  else if isReservedSigil c then
    Lexeme.scan .reservedSigil (.reservedDirective around begun) (take 1) text
  else if isPrivateSigil c then
    Lexeme.scan .privateSigil (.reservedDirective around begun) (take 1) text
  else if c == '{' then fail .nestedOpen text
  else fail (.illegalInExpression c) text

/-! ### Reserved bodies -/

/-- Scans a lexeme of a reserved body; what cannot belong to the body ends it, and is scanned by
`after`. -/
def scanReserved (within : Context) (after : Char → List Char → Scan Lexeme) (c : Char)
    (rest : List Char) : Scan Lexeme :=
  let text := c :: rest
  if isBlank c then Lexeme.blank within text
  else if c == '|' then Lexeme.scan .quotedLiteral within quoted text
  else if c == '\\' || isReservedChar c then
    Lexeme.scan .reservedText within (decoded isReservedChar) text
  else after c rest

/-! ### All contexts -/

/-- Whether the text begins a complex message: its first character that is no blank is a point, or
the first of two opening braces. -/
def beginsComplex (text : List Char) : Bool :=
  match text.dropWhile isBlank with
  | '.' :: _ => true
  | '{' :: '{' :: _ => true
  | _ => false

/-- Scans the lexeme that begins with a character in a context. -/
def scan (context : Context) (c : Char) (rest : List Char) : Scan Lexeme :=
  match context with
  | start => if beginsComplex (c :: rest) then scanHeader c rest else scanPattern .message c rest
  | message => scanPattern .message c rest
  | quotedPattern => scanPattern .quotedPattern c rest
  | header => scanHeader c rest
  | reservedStatement => scanReserved reservedStatement scanHeader c rest
  | expression around state => scanExpression around state c rest
  | reservedDirective around state =>
    scanReserved (reservedDirective around state) (scanExpression around state) c rest

/-! ### Coverage and progress -/

/-- A scan accounts for every character of a text, and succeeds only by taking one. -/
structure Takes (scan : Scan Lexeme) (text : List Char) : Prop where
  /-- What was taken and what was left make up the text. -/
  covers : scan.taken ++ scan.rest = text
  /-- A success leaves less than the text. -/
  advances : ∀ lexeme, scan.result = .ok lexeme → scan.rest.length < text.length

theorem takes_lexeme {kind : TokenKind} {next : Context} {value : Scanner (List Char)}
    {text : List Char} (hc : Covers value) (ha : Advances value text) :
    Takes (Lexeme.scan kind next value text) text :=
  ⟨covers_bind hc (fun _ => covers_pure _) text, advances_bind_left ha fun _ => covers_pure _⟩

theorem takes_ite {p : Prop} [Decidable p] {a b : Scan Lexeme} {text : List Char}
    (ha : p → Takes a text) (hb : ¬p → Takes b text) : Takes (if p then a else b) text := by
  split
  · exact ha ‹p›
  · exact hb ‹¬p›

theorem takes_fail (fault : Fault) (text : List Char) : Takes (fail fault text) text :=
  ⟨rfl, by simp [fail]⟩

theorem takes_take {kind : TokenKind} {next : Context} {n : Nat} (hn : n ≠ 0) (c : Char)
    (rest : List Char) : Takes (Lexeme.scan kind next (take n) (c :: rest)) (c :: rest) :=
  takes_lexeme (covers_take n) (advances_take hn c rest)

theorem takes_blank {next : Context} {c : Char} (hc : isBlank c = true) (rest : List Char) :
    Takes (Lexeme.blank next (c :: rest)) (c :: rest) :=
  takes_lexeme (covers_takeWhile _) (advances_takeWhile hc rest)

theorem takes_quoted {next : Context} (c : Char) (rest : List Char) :
    Takes (Lexeme.scan .quotedLiteral next quoted (c :: rest)) (c :: rest) :=
  takes_lexeme covers_quoted (advances_quoted c rest)

theorem takes_behind {kind : TokenKind} {next : Context} {s : Scanner (List Char)} (hs : Covers s)
    (c : Char) (rest : List Char) :
    Takes (Lexeme.scan kind next (behind s) (c :: rest)) (c :: rest) :=
  takes_lexeme (covers_behind hs) (advances_behind hs c rest)

theorem takes_scanPattern (around : Surroundings) (c : Char) (rest : List Char) :
    Takes (scanPattern around c rest) (c :: rest) := by
  unfold scanPattern
  split
  · exact takes_take Nat.one_ne_zero c rest
  · split
    · split
      · exact takes_take (by decide) c rest
      · exact takes_fail _ _
    · rename_i hopen hclose
      -- text that is empty would be followed by a brace, and both braces are dealt with above
      refine takes_lexeme covers_patternText fun text h => ?_
      by_cases hc : c = '\\' ∨ isTextChar c = true
      · exact advances_bind_left (advances_decoded hc rest) (fun text => covers_bind covers_peek
          fun next => by
            split
            · split
              · exact covers_pure text
              · exact covers_fail _
            · exact covers_pure text) text h
      · obtain ⟨hescape, hplain⟩ := not_or.1 hc
        have hstop : decoded isTextChar (c :: rest) = ⟨[], c :: rest, .ok []⟩ := by
          rw [decoded_cons _ hescape, if_neg hplain]
        simp_all [patternText, bind, peek, fail]

theorem takes_scanKeyword (c : Char) (rest : List Char) :
    Takes (scanKeyword (c :: rest)) (c :: rest) :=
  ⟨covers_bind (covers_behind (covers_name _)) (fun _ => covers_pure _) _,
    advances_bind_left (advances_behind (covers_name _) c rest) fun _ => covers_pure _⟩

theorem takes_scanHeader (c : Char) (rest : List Char) :
    Takes (scanHeader c rest) (c :: rest) := by
  unfold scanHeader
  exact takes_ite (fun h => takes_blank h rest) fun _ =>
    takes_ite (fun _ => takes_scanKeyword c rest) fun _ =>
    takes_ite (fun _ => takes_ite (fun _ => takes_take (by decide) c rest)
      fun _ => takes_take Nat.one_ne_zero c rest) fun _ =>
    takes_ite (fun _ => takes_behind (covers_name _) c rest) fun _ =>
    takes_ite (fun _ => takes_take Nat.one_ne_zero c rest) fun _ =>
    takes_ite (fun _ => takes_take Nat.one_ne_zero c rest) fun _ =>
    takes_ite (fun _ => takes_quoted c rest) fun _ =>
    takes_ite (fun _ => takes_lexeme covers_number (advances_number _)) fun _ =>
    takes_ite (fun _ => takes_lexeme (covers_name _) (advances_name _ _)) fun _ => takes_fail _ _

theorem takes_scanExpression (around : Surroundings) (state : ExpressionState) (c : Char)
    (rest : List Char) : Takes (scanExpression around state c rest) (c :: rest) := by
  unfold scanExpression
  exact takes_ite (fun h => takes_blank h rest) fun _ =>
    takes_ite (fun _ => takes_take Nat.one_ne_zero c rest) fun _ =>
    takes_ite (fun _ => takes_behind covers_identifier c rest) fun _ =>
    takes_ite (fun _ => takes_behind covers_identifier c rest) fun _ =>
    takes_ite (fun _ => takes_take Nat.one_ne_zero c rest) fun _ =>
    takes_ite (fun _ => takes_behind (covers_name _) c rest) fun _ =>
    takes_ite (fun _ => takes_behind covers_identifier c rest) fun _ =>
    takes_ite (fun _ => takes_behind covers_identifier c rest) fun _ =>
    takes_ite (fun _ => takes_take Nat.one_ne_zero c rest) fun _ =>
    takes_ite (fun _ => takes_quoted c rest) fun _ =>
    takes_ite (fun _ => takes_lexeme covers_number (advances_number _)) fun _ =>
    takes_ite (fun _ => takes_ite (fun _ => takes_lexeme covers_identifier (advances_identifier _))
      fun _ => takes_lexeme (covers_name _) (advances_name _ _)) fun _ =>
    takes_ite (fun _ => takes_take Nat.one_ne_zero c rest) fun _ =>
    takes_ite (fun _ => takes_take Nat.one_ne_zero c rest) fun _ =>
    takes_ite (fun _ => takes_fail _ _) fun _ => takes_fail _ _

theorem takes_scanReserved (within : Context) {after : Char → List Char → Scan Lexeme}
    (hafter : ∀ c rest, Takes (after c rest) (c :: rest)) (c : Char) (rest : List Char) :
    Takes (scanReserved within after c rest) (c :: rest) := by
  unfold scanReserved
  exact takes_ite (fun h => takes_blank h rest) fun _ =>
    takes_ite (fun _ => takes_quoted c rest) fun _ =>
    takes_ite (fun h => takes_lexeme (covers_decoded _) (advances_decoded (by simpa using h) rest))
      fun _ => hafter c rest

/-- A lexeme and what follows it make up the text, and a lexeme is never empty. -/
theorem takes_scan (context : Context) (c : Char) (rest : List Char) :
    Takes (context.scan c rest) (c :: rest) := by
  unfold scan
  split
  · split
    · exact takes_scanHeader c rest
    · exact takes_scanPattern .message c rest
  · exact takes_scanPattern .message c rest
  · exact takes_scanPattern .quotedPattern c rest
  · exact takes_scanHeader c rest
  · exact takes_scanReserved _ takes_scanHeader c rest
  · exact takes_scanExpression _ _ c rest
  · exact takes_scanReserved _ (takes_scanExpression _ _) c rest

end Context

end MessageFormat
