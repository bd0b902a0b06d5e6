import MessageFormat.Proofs.BodyScan
import MessageFormat.Proofs.SourceLines

/-!
# Reading with a cursor

Another way to read a message than `Message.read`: the tokens stay where they are, and a cursor
walks over them.  It moves forward by one token, but not beyond the last, looks past blanks without
moving, and backs up by one token where it took a blank too many.

Nothing here holds by construction.  A walk halts, with a reason of its own, when the cursor or
anything that is looked up is not within the tokens, when a line is cut out of the source through a
character, and when a loop goes on although its round has not moved the cursor forward.

* `Walk` : what a cursor does on a tape of tokens;
* `Walk.loop` : rounds that end where they say so, each behind the one before;
* `Walk.message` : the walk that reads a message;
* `parseInPlace` : the message that some tokens of a source text spell out, read in this way.
-/

namespace MessageFormat

variable {α β σ : Type}

/-! ### Walks -/

/-- Tokens to walk over, and the source text that they are of. -/
structure Tape where
  /-- The source text, which errors show lines of. -/
  source : String
  /-- The tokens. -/
  tokens : List Token

/-- The tokens of a source text with their end marked: if the last of them does not mark it, a token
behind the last character does. -/
def Tape.ofTokens (source : String) (tokens : List Token) : Tape :=
  ⟨source, if tokens.getLast?.any (·.kind == .endOfInput) then tokens
    else tokens ++ [⟨.endOfInput, "", .point (.endOf source)⟩]⟩

/-- Why a walk halts without a result. -/
inductive Halt where
  /-- The tokens are not as they should be. -/
  | error (error : Error)
  /-- The cursor is not at a token, or one is looked up where there is none. -/
  | outOfRange
  /-- A cut in the source goes beyond it or through a character. -/
  | brokenCut
  /-- A loop goes on without having moved the cursor forward. -/
  | stuck
deriving DecidableEq, Repr

/-- What a cursor does from some index on: it comes to a result and to another index, or halts. -/
def Walk (α : Type) : Type := Tape → Nat → Except Halt (α × Nat)

/-- What is between an operand and what stands behind it. -/
inductive Spacing where
  /-- Nothing. -/
  | absent
  /-- A run of blanks that does not separate. -/
  | marks
  /-- A run of blanks that separates. -/
  | space
deriving DecidableEq, Repr

/-- Whether there are blanks in the gap. -/
def Spacing.isTaken (gap : Spacing) : Bool := gap != .absent

/-- The error of finding a token where other kinds were expected, on a line of the source. -/
def Token.unexpectedOn (token : Token) (line : String) (expected : List TokenKind) : Error :=
  let place : Place := ⟨token.span.line, token.span.column, line⟩
  if token.kind = .fault then .ofCause (.illegal token.value place)
  else .ofCause (.unexpected (expected.map TokenKind.name) token.description place)

namespace Walk

instance : Monad Walk where
  pure a := fun _ index => .ok (a, index)
  bind walk next := fun tape index =>
    match walk tape index with
    | .ok (a, last) => next a tape last
    | .error halt => .error halt

/-! ### Moves -/

/-- Puts the cursor at an index. -/
def moveTo (index : Nat) : Walk Unit := fun tape _ =>
  if index < tape.tokens.length then .ok ((), index) else .error .outOfRange

/-- Moves the cursor forward by one token, unless it is at the last one. -/
def advance : Walk Unit := fun tape index =>
  if index + 1 < tape.tokens.length then moveTo (index + 1) tape index else .ok ((), index)

/-- Moves the cursor back by one token, unless it is at the first one. -/
def backUp : Walk Unit := fun tape index => moveTo (index - 1) tape index

/-- The token at the cursor. -/
def current : Walk Token := fun tape index =>
  match tape.tokens[min index (tape.tokens.length - 1)]? with
  | some token => .ok (token, index)
  | none => .error .outOfRange

/-- The first token from the cursor on that is no blank. -/
def peekNonBlank : Walk Token := fun tape index =>
  if index ≤ tape.tokens.length then
    match (tape.tokens.drop index).find? (!·.isBlank) with
    | some token => .ok (token, index)
    | none => current tape index
  else .error .outOfRange

/-- Halts for a token where other kinds were expected. -/
def unexpectedAt (token : Token) (expected : List TokenKind) : Walk α := fun tape _ =>
  match token.span.sourceLine? tape.source with
  | some line => .error (.error (token.unexpectedOn line expected))
  | none => .error .brokenCut

/-- Halts for the token at the cursor. -/
def unexpected (expected : List TokenKind) : Walk α := do
  unexpectedAt (← current) expected

/-- Takes the token at the cursor, which must be of some kind. -/
def demand (kind : TokenKind) : Walk Token := do
  let token ← current
  if token.kind = kind then do
    advance
    return token
  else unexpected [kind]

/-- Takes one run of blanks, if it is at the cursor. -/
def takeBlank : Walk Spacing := do
  let token ← current
  if token.kind = .blank then do
    advance
    return if token.isSeparator then .space else .marks
  else return .absent

/-- Gives the blanks of a gap back. -/
def putBack (gap : Spacing) : Walk Unit :=
  if gap.isTaken then backUp else return ()

/-- Halts unless there is a separator in a gap. -/
def demandSpace (gap : Spacing) : Walk Unit :=
  if gap = .space then return () else unexpected [.blank]

/-- Does rounds until one of them says that it was the last.  All other rounds must move the cursor
forward. -/
def loop (round : σ → Walk (σ ⊕ β)) (state : σ) (tape : Tape) (index : Nat) :
    Except Halt (β × Nat) :=
  match round state tape index with
  | .error halt => .error halt
  | .ok (.inr result, last) => .ok (result, last)
  | .ok (.inl next, last) =>
    if index < last ∧ last < tape.tokens.length then loop round next tape last
    else .error .stuck
termination_by tape.tokens.length - index

/-- Takes an item and puts it behind others, or ends with these if there is none. -/
def itemRound (item : Walk (Option α)) (items : List α) : Walk (List α ⊕ List α) := do
  match ← item with
  | some a => return .inl (items ++ [a])
  | none => return .inr items

/-- Collects items behind some others, until there is none. -/
def collect (item : Walk (Option α)) (items : List α) : Walk (List α) :=
  loop (itemRound item) items

/-! ### Literals, options and attributes -/

/-- Takes an operand, if it is at the cursor. -/
def operand? : Walk (Option Operand) := do
  match Operand.ofToken? (← current) with
  | some operand => do
    advance
    return some operand
  | none => return none

/-- Takes a value. -/
def value : Walk Operand := do
  match ← operand? with
  | some operand => return operand
  | none => unexpected operandKinds

/-- Takes an equals sign and a value. -/
def assigned : Walk Operand := do
  let _ ← takeBlank
  let _ ← demand .equals
  let _ ← takeBlank
  value

/-- Takes an option behind a separator, if there is one. -/
def namedOption? : Walk (Option NamedOption) := do
  let gap ← takeBlank
  let token ← current
  if token.kind = .optionName then do
    demandSpace gap
    advance
    return some ⟨.ofText token.value, ← assigned⟩
  else do
    putBack gap
    return none

/-- Takes the value of an attribute, if it has one. -/
def attributeValue? : Walk (Option Operand) := do
  let gap ← takeBlank
  if (← current).kind = .equals then do
    advance
    let _ ← takeBlank
    return some (← value)
  else do
    putBack gap
    return none

/-- Takes an attribute behind a separator, if there is one. -/
def attribute? : Walk (Option Attribute) := do
  let gap ← takeBlank
  let token ← current
  if token.kind = .attributeName then do
    demandSpace gap
    advance
    return some ⟨.ofText token.value, ← attributeValue?⟩
  else do
    putBack gap
    return none

/-! ### Directives -/

/-- Takes a token of a reserved body, or ends with what has been taken. -/
def bodyRound (scan : BodyScan) : Walk (BodyScan ⊕ BodyScan) := do
  match scan.push? (← current) with
  | some next => do
    advance
    return .inl next
  | none => return .inr scan

/-- Takes a reserved body, and gives the blanks at its end back. -/
def body : Walk (List BodyPiece) := do
  let scan ← loop bodyRound .start
  if scan.isBehindBlank then do
    backUp
    return scan.pieces
  else return scan.pieces

/-- Takes a directive. -/
def directive : Walk Directive := do
  let token ← current
  advance
  match token.kind with
  | .functionName => return .function ⟨.ofText token.value, ← collect namedOption? []⟩
  | .reservedSigil => return .reserved ⟨token.value.toList.head?.getD '!', ← body⟩
  | .privateSigil => return .privateUse ⟨token.value.toList.head?.getD '!', ← body⟩
  | _ => unexpectedAt token directiveKinds

/-! ### Expressions and markup -/

/-- Takes the operand and the directive of an expression, of which one may be absent. -/
def content : Walk (Option Operand × Option Directive) := do
  match ← operand? with
  | some operand => do
    let gap ← takeBlank
    if (← current).kind.beginsDirective then do
      demandSpace gap
      return (some operand, some (← directive))
    else do
      putBack gap
      return (some operand, none)
  | none => do
    if (← current).kind.beginsDirective then return (none, some (← directive))
    else unexpected (operandKinds ++ directiveKinds)

/-- Takes a closing brace, which is one of the expected kinds. -/
def close (expected : List TokenKind) : Walk Unit := do
  if (← current).kind = .expressionClose then advance
  else unexpected expected

/-- Takes an expression. -/
def expression : Walk Expression := do
  let _ ← demand .expressionOpen
  let _ ← takeBlank
  let (operand, directive) ← content
  let attributes ← collect attribute? []
  let _ ← takeBlank
  close (kindsBehind directive ++ [.attributeName, .expressionClose])
  return ⟨operand, directive, attributes⟩

/-- Takes an expression behind blanks, if there is one. -/
def expression? : Walk (Option Expression) := do
  let gap ← takeBlank
  if (← current).kind = .expressionOpen then return some (← expression)
  else do
    putBack gap
    return none

/-- Takes the slash before the closing brace of standalone markup, if it is there and may be. -/
def selfClose? (mayStandAlone : Bool) : Walk Bool := do
  if mayStandAlone && (← current).kind == .selfClose then do
    advance
    return true
  else return false

/-- Takes the end of markup, and tells whether the markup stands alone. -/
def markupEnd (mayStandAlone : Bool) : Walk Bool := do
  let standsAlone ← selfClose? mayStandAlone
  close ([.optionName, .attributeName] ++
    (if mayStandAlone && !standsAlone then [.selfClose] else []) ++ [.expressionClose])
  return standsAlone

/-- Takes markup. -/
def markup : Walk Markup := do
  let _ ← demand .expressionOpen
  let _ ← takeBlank
  let token ← current
  if token.kind.beginsMarkup then do
    let opens := token.kind == .markupOpen
    advance
    let options ← collect namedOption? []
    let attributes ← collect attribute? []
    let _ ← takeBlank
    let standsAlone ← markupEnd opens
    let kind := if standsAlone then .standalone else if opens then .opening else .closing
    return ⟨kind, .ofText token.value, options, attributes⟩
  else unexpected [.markupOpen, .markupClose]

/-! ### Patterns -/

/-- Takes a placeholder: the cursor looks behind the brace for what it is. -/
def placeholder : Walk PatternPart := do
  advance
  let token ← peekNonBlank
  backUp
  if token.kind.beginsMarkup then return .markup (← markup)
  else return .expression (← expression)

/-- Takes a part of a pattern that ends before a token of the kind `closing`. -/
def part? (closing : TokenKind) : Walk (Option PatternPart) := do
  let token ← current
  if token.kind = .text then do
    advance
    return some (.text token.value)
  else if token.kind = .expressionOpen then return some (← placeholder)
  else if token.kind = closing then return none
  else unexpected [.text, .expressionOpen, closing]

/-- Takes a pattern between double braces. -/
def quotedPattern : Walk Pattern := do
  let _ ← demand .patternOpen
  let pattern ← collect (part? .patternClose) []
  let _ ← demand .patternClose
  return pattern

/-! ### Matchers -/

/-- Takes a key. -/
def key : Walk VariantKey := do
  match VariantKey.ofToken? (← current) with
  | some key => do
    advance
    return key
  | none => unexpected keyKinds

/-- Takes a further key behind a separator, unless the pattern of the variant follows. -/
def key? : Walk (Option VariantKey) := do
  let gap ← takeBlank
  let token ← current
  if token.kind = .patternOpen then return none
  else if keyKinds.contains token.kind then do
    demandSpace gap
    return some (← key)
  else unexpected (keyKinds ++ [.patternOpen])

/-- Takes a variant. -/
def variant : Walk Variant := do
  let first ← key
  let keys ← collect key? [first]
  return ⟨keys, ← quotedPattern⟩

/-- Takes a variant behind blanks, unless the end of the input is there. -/
def variant? : Walk (Option Variant) := do
  let _ ← takeBlank
  if (← current).kind = .endOfInput then return none
  else return some (← variant)

/-- Takes a matcher. -/
def matcher : Walk Matcher := do
  advance
  let selectors ← collect expression? []
  if selectors.isEmpty then unexpected [.expressionOpen]
  else do
    let variants ← collect variant? []
    if variants.isEmpty then unexpected keyKinds
    else return ⟨selectors, variants⟩

/-! ### Declarations and messages -/

/-- Takes an input declaration: the cursor looks behind the brace for the variable. -/
def inputDeclaration : Walk Declaration := do
  advance
  let _ ← takeBlank
  let _ ← demand .expressionOpen
  let token ← peekNonBlank
  backUp
  if token.kind = .variableName then return .input (← expression)
  else unexpectedAt token [.variableName]

/-- Takes a local declaration. -/
def localDeclaration : Walk Declaration := do
  advance
  demandSpace (← takeBlank)
  let token ← demand .variableName
  let _ ← takeBlank
  let _ ← demand .equals
  let _ ← takeBlank
  return .assign token.value (← expression)

/-- Takes a reserved statement. -/
def reservedStatement : Walk Declaration := do
  let token ← demand .reservedKeyword
  let body ← body
  let expressions ← collect expression? []
  if expressions.isEmpty then unexpected [.expressionOpen]
  else return .reserved ⟨token.value, body, expressions⟩

/-- Takes a declaration and puts it behind others, or ends with these and the body of a complex
message. -/
def statementRound (declarations : List Declaration) :
    Walk (List Declaration ⊕ List Declaration × MessageBody) := do
  let _ ← takeBlank
  match (← current).kind with
  | .inputKeyword => return .inl (declarations ++ [← inputDeclaration])
  | .localKeyword => return .inl (declarations ++ [← localDeclaration])
  | .reservedKeyword => return .inl (declarations ++ [← reservedStatement])
  | .matchKeyword => return .inr (declarations, .matcher (← matcher))
  | .patternOpen => return .inr (declarations, .pattern (← quotedPattern))
  | _ => unexpected statementKinds

/-- Takes the declarations and the body of a complex message. -/
def statements : Walk (List Declaration × MessageBody) := loop statementRound []

/-- Takes a message, up to the end of the input. -/
def message : Walk Message := do
  let first ← peekNonBlank
  if first.kind.isKeyword || first.kind == .patternOpen then do
    let (declarations, body) ← statements
    let _ ← takeBlank
    let _ ← demand .endOfInput
    return .complex declarations body
  else do
    let pattern ← collect (part? .endOfInput) []
    let _ ← demand .endOfInput
    return .simple pattern

/-- The result of a walk from the first token on. -/
def run (walk : Walk α) (tape : Tape) : Except Halt α :=
  ((moveTo 0 >>= fun _ => walk) tape 0).map Prod.fst

end Walk

/-- The message that some tokens of a source text spell out, read with a cursor. -/
def parseInPlace (source : String) (tokens : List Token) : Except Halt Message :=
  Walk.message.run (.ofTokens source tokens)

end MessageFormat
