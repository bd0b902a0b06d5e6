/-!
# Errors

What can go wrong with a message, as causes with the data that their wording needs.  Every cause
belongs to one of four tiers, in the order in which a message passes through them: reading its text,
checking its structure, resolving its placeholders and running its functions.

An error may carry a *context*: the path to the node that failed and that node's text.  The path is
built from the inside out (`Error.within`), and the first node recorded stays (`Error.atNode`).
-/

namespace MessageFormat

/-- A place in a source text, with the line that it is on. -/
structure Place where
  /-- The number of the line, from 1. -/
  line : Nat
  /-- The number of the character on its line, from 1. -/
  column : Nat
  /-- The text of the line. -/
  sourceLine : String
deriving DecidableEq, Repr

/-- The tier of an error. -/
inductive ErrorTier where
  /-- The text is not a message. -/
  | reading
  /-- The message breaks a rule of the data model. -/
  | dataModel
  /-- A placeholder cannot be resolved. -/
  | resolution
  /-- A function reports a failure. -/
  | function
deriving DecidableEq, Repr

/-- The cause of an error. -/
inductive ErrorCause where
  /-- A character or sequence that may not stand where it does. -/
  | illegal (description : String) (place : Place)
  /-- A token that the grammar does not allow where it stands, with all that it would allow. -/
  | unexpected (expected : List String) (found : String) (place : Place)
  /-- A name without characters. -/
  | emptyName
  /-- A number literal that is infinite or not a number. -/
  | nonFiniteNumber (source : String)
  /-- An expression with neither an operand nor a directive. -/
  | emptyExpression
  /-- An input declaration without a variable for an operand. -/
  | invalidInput
  /-- A matcher without selectors. -/
  | missingSelector
  /-- A matcher without variants. -/
  | missingVariant
  /-- A variant that does not have one key for each selector. -/
  | keyCountMismatch (expected actual : Nat)
  /-- A matcher without a variant of catch-all keys only. -/
  | missingFallback
  /-- A variable that is bound twice, or bound after its first use. -/
  | duplicateDeclaration (name : String)
  /-- Two options of the same name. -/
  | duplicateOption (name : String)
  /-- Two variants with the same keys. -/
  | duplicateVariant (keys : String)
  /-- Closing markup with options. -/
  | closeWithOptions (name : String)
  /-- A function that is not registered. -/
  | unknownFunction (name : String)
  /-- A variable that is neither declared nor given. -/
  | unresolvedVariable (name : String)
  /-- An expression with a reserved or private-use directive. -/
  | unsupportedExpression (sigil : String)
  /-- A reserved statement. -/
  | unsupportedStatement (keyword : String)
  /-- A selector whose function cannot select, or that has none. -/
  | unselectable (selector : String)
  /-- A function that rejects its operand. -/
  | badOperand (function description : String)
  /-- A function that rejects an option. -/
  | badOption (function description : String)
  /-- A function that fails to select. -/
  | badSelector (function description : String)
  /-- A key that a function cannot read. -/
  | badKey (function key : String)
deriving DecidableEq, Repr

namespace ErrorTier

/-- The name of the tier. -/
def text : ErrorTier → String
  | reading => "syntax error"
  | dataModel => "data model error"
  | resolution => "resolution error"
  | function => "message function error"

end ErrorTier

namespace ErrorCause

/-- The tier of a cause. -/
def tier : ErrorCause → ErrorTier
  | illegal .. | unexpected .. => .reading
  | emptyName | nonFiniteNumber _ | emptyExpression | invalidInput | missingSelector
  | missingVariant | keyCountMismatch .. | missingFallback | duplicateDeclaration _
  | duplicateOption _ | duplicateVariant _ | closeWithOptions _ => .dataModel
  | unknownFunction _ | unresolvedVariable _ | unsupportedExpression _ | unsupportedStatement _
  | unselectable _ => .resolution
  | badOperand .. | badOption .. | badSelector .. | badKey .. => .function

/-- The wording of an error at a place of the source. -/
def messageAt (place : Place) (description : String) : String :=
  "syntax error at " ++ place.line.repr ++ ":" ++ place.column.repr ++ ": " ++ description

/-- The wording of the cause. -/
def message : ErrorCause → String
  | illegal description place => messageAt place description
  | unexpected expected found place =>
    messageAt place ("expected " ++ " or ".intercalate expected ++ ", found " ++ found)
  | emptyName => "empty name"
  | nonFiniteNumber source => "number literal is not finite: " ++ source
  | emptyExpression => "expression has neither operand nor annotation"
  | invalidInput => "input declaration operand must be a variable"
  | missingSelector => "matcher has no selectors"
  | missingVariant => "matcher has no variants"
  | keyCountMismatch expected actual =>
    "variant key mismatch: expected " ++ expected.repr ++ " keys, got " ++ actual.repr
  | missingFallback => "missing fallback variant"
  | duplicateDeclaration name => "duplicate declaration: $" ++ name
  | duplicateOption name => "duplicate option name: " ++ name
  | duplicateVariant keys => "duplicate variant: " ++ keys
  | closeWithOptions name => "markup close " ++ name ++ " must not have options"
  | unknownFunction name => "unknown function: :" ++ name
  | unresolvedVariable name => "unresolved variable: $" ++ name
  | unsupportedExpression sigil => "unsupported expression: " ++ sigil
  | unsupportedStatement keyword => "unsupported statement: " ++ keyword
  | unselectable selector => "missing selector annotation: " ++ selector
  | badOperand function description => "bad operand for :" ++ function ++ ": " ++ description
  | badOption function description => "bad option for :" ++ function ++ ": " ++ description
  | badSelector function description => "bad selector :" ++ function ++ ": " ++ description
  | badKey function key => "bad variant key for :" ++ function ++ ": " ++ key

end ErrorCause

/-- Where in a message an error arose. -/
structure ErrorContext where
  /-- The dotted path to the node that failed. -/
  path : Option String := none
  /-- The text of the node that failed. -/
  node : Option String := none
deriving DecidableEq, Repr, Inhabited

namespace ErrorContext

/-- The wording of a context. -/
def text : ErrorContext → String
  | ⟨none, none⟩ => ""
  | ⟨some path, none⟩ => "at " ++ path
  | ⟨none, some node⟩ => node
  | ⟨some path, some node⟩ => "at " ++ path ++ ": " ++ node

end ErrorContext

/-- An error: its cause and, if known, where it arose. -/
structure Error where
  /-- What went wrong. -/
  cause : ErrorCause
  /-- Where it went wrong. -/
  context : Option ErrorContext := none
deriving DecidableEq, Repr

namespace Error

/-- The error of a cause, without a context. -/
def ofCause (cause : ErrorCause) : Error := ⟨cause, none⟩

/-- The tier of the error. -/
def tier (error : Error) : ErrorTier := error.cause.tier

/-- The path to the node that failed, if recorded. -/
def path (error : Error) : Option String := error.context.bind (·.path)

/-- The text of the node that failed, if recorded. -/
def node (error : Error) : Option String := error.context.bind (·.node)

/-- The error with its context replaced. -/
def withContext (context : ErrorContext) (error : Error) : Error :=
  { error with context := some context }

/-- Records the node that failed, unless one is recorded already: the innermost node stays. -/
def atNode (node : String) (error : Error) : Error :=
  let context := error.context.getD {}
  error.withContext { context with node := some (context.node.getD node) }

/-- Puts a segment before the path. -/
def within (segment : String) (error : Error) : Error :=
  let context := error.context.getD {}
  error.withContext { context with
    path := some (match context.path with
      | some path => segment ++ "." ++ path
      | none => segment) }

/-- The wording of the error, with its context in parentheses. -/
def message (error : Error) : String :=
  match error.context with
  | none => error.cause.message
  | some context => error.cause.message ++ " (" ++ context.text ++ ")"

@[simp]
theorem cause_atNode (node : String) (error : Error) :
    (error.atNode node).cause = error.cause := rfl

@[simp]
theorem cause_within (segment : String) (error : Error) :
    (error.within segment).cause = error.cause := rfl

@[simp]
theorem node_within (segment : String) (error : Error) :
    (error.within segment).node = error.node := by
  rcases error with ⟨cause, _ | context⟩ <;> rfl

/-- The path is that of the part behind the segment, if it has one. -/
theorem path_within (segment : String) (error : Error) : (error.within segment).path =
    some (error.path.elim segment fun path => segment ++ "." ++ path) := by
  rcases error with ⟨cause, _ | ⟨_ | path, node⟩⟩ <;> rfl

end Error

/-! ### Outcomes -/

section Outcomes

variable {ε α β : Type} {x : Except ε α} {f : α → Except ε β}

/-- A sequence of steps succeeds if each of them does. -/
theorem bind_eq_ok_iff {b : β} : (x >>= f) = .ok b ↔ ∃ a, x = .ok a ∧ f a = .ok b := by
  cases x <;> simp [bind, Except.bind]

/-- A sequence of steps fails with the first that does. -/
theorem bind_eq_error_iff {e : ε} :
    (x >>= f) = .error e ↔ x = .error e ∨ ∃ a, x = .ok a ∧ f a = .error e := by
  cases x <;> simp [bind, Except.bind]

/-- A step succeeds in the same way however its error is told. -/
theorem mapError_eq_ok_iff {ε' : Type} {g : ε → ε'} {a : α} :
    x.mapError g = .ok a ↔ x = .ok a := by
  cases x with
  | error e => exact ⟨by rintro ⟨⟩, by rintro ⟨⟩⟩
  | ok b =>
    constructor
    all_goals
      rintro ⟨⟩
      rfl

/-- What is known of a result, if there is one, is known of a result that there is. -/
theorem exists_eq_ok_of_map_toOption {g : α → β} {b : β} (h : x.toOption.map g = some b) :
    ∃ a, x = .ok a ∧ g a = b := by
  cases x with
  | error => cases h
  | ok a => exact ⟨a, rfl, Option.some.inj h⟩

end Outcomes

end MessageFormat
