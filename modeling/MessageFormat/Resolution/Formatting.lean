import MessageFormat.Message.Printing
import MessageFormat.Resolution.Basic
import MessageFormat.Resolution.Ranking
import MessageFormat.Resolution.Scope

/-!
# Formatting messages

How a message becomes output, given the functions of a registry and the values that the caller binds
to variables.  The declarations are resolved in order, a matcher chooses a pattern, and the parts of
the pattern are formatted one by one.

A declaration is formatted where it stands, so that an error in it is reported once, at the
declaration; a variable whose declaration has failed is replaced by a fallback without a further
error.

* `Environment.formatToParts` : the parts of a formatted message;
* `Environment.format` : its text.
-/

namespace MessageFormat

/-- What a message is formatted against. -/
structure Environment where
  /-- The functions that the message may call. -/
  registry : Registry
  /-- The values of the caller's variables. -/
  input : NameMap Value := .empty
  /-- The choices of the caller. -/
  settings : Settings := {}

/-! ### Fallbacks -/

/-- What stands for a variable without a value. -/
def variableFallback (name : String) : String := "\x7b$" ++ name ++ "\x7d"

/-- What stands for an expression that cannot be resolved or formatted. -/
def Expression.fallback (e : Expression) : String :=
  match e.operand, e.directive with
  | some (.variableName name), _ => variableFallback name
  | some (.literal l), _ => "\x7b" ++ printQuoted l.value ++ "\x7d"
  | none, some (.function call) => "\x7b:" ++ call.identifier.text ++ "\x7d"
  | none, some (.privateUse directive) | none, some (.reserved directive) =>
    "\x7b" ++ String.singleton directive.sigil ++ "\x7d"
  | none, none => "\x7b\ufffd\x7d"

namespace Environment

variable (env : Environment)

/-! ### Values -/

/-- What a variable resolves to, or what stands for it: its declaration comes before the input.  A
variable in neither is an error of the node that reads it. -/
def lookUp (scope : Scope) (name node : String) : Resolution (Except String Resolved) :=
  match scope.find? name with
  | some (.value resolved) => pure (.ok resolved)
  | some (.fallback text) => pure (.error text)
  | none =>
    match env.input.find? name with
    | some value => pure (.ok (.ofValue value))
    | none => do
      .report ((Error.ofCause (.unresolvedVariable name)).atNode node)
      return .error (variableFallback name)

/-- What an operand resolves to, or what stands for it. -/
def resolveOperand (scope : Scope) (node : String) : Operand →
    Resolution (Except String Resolved)
  | .literal l => pure (.ok (.ofValue (.string l.value)))
  | .variableName name => env.lookUp scope name node

/-- The entry of an option, if its value resolves. -/
def resolveOption (scope : Scope) (node : String) (o : NamedOption) :
    Resolution (Option (String × Value)) := do
  match ← env.resolveOperand scope node o.value with
  | .ok resolved => return some (o.identifier.text, resolved.operandOrNull)
  | .error _ => return none

/-- The options that resolve, by their names as written. -/
def resolveOptions (scope : Scope) (node : String) (options : List NamedOption) :
    Resolution Options := do
  let entries ← options.mapM (env.resolveOption scope node)
  return .ofList (entries.filterMap id)

/-- What an expression resolves to, or what stands for it. -/
def resolve (scope : Scope) (e : Expression) : Resolution (Except String Resolved) := do
  match ← e.operand.mapM (env.resolveOperand scope e.print) with
  | some (.error text) => return .error text
  | operand =>
    let operand := operand.bind Except.toOption
    match e.directive with
    | none => return operand.elim (.error e.fallback) .ok
    | some (.function call) =>
      let name := call.identifier.text
      let options ← env.resolveOptions scope e.print call.options
      if env.registry.contains name then return .ok (Resolved.withCall name options operand)
      else
        .report ((Error.ofCause (.unknownFunction name)).atNode e.print)
        return .error e.fallback
    | some (.privateUse directive) | some (.reserved directive) =>
      .report ((Error.ofCause (.unsupportedExpression (.singleton directive.sigil))).atNode e.print)
      return .error e.fallback

/-- The text of what an expression resolves to. -/
def formatResolved (resolved : Resolved) : Except Error String :=
  match resolved.call with
  | none => .ok resolved.operandOrNull.text
  | some call =>
    match env.registry.find? call.name with
    | none => .error (.ofCause (.unknownFunction call.name))
    | some function =>
      (function.format resolved.operand call.options env.settings.locale).map Value.text

/-! ### Declarations -/

/-- What a declaration binds its variable to. -/
def bindingOf (scope : Scope) (name : String) (e : Expression) : Resolution Binding := do
  match ← env.resolve scope e with
  | .error _ => return .fallback (variableFallback name)
  | .ok resolved =>
    match env.formatResolved resolved with
    | .ok _ => return .value resolved
    | .error error =>
      .report (error.atNode e.print)
      return .fallback (variableFallback name)

/-- The scope behind a declaration. -/
def declare (scope : Scope) (d : Declaration) : Resolution Scope :=
  match d with
  | .input e =>
    match e.variableName? with
    | some name => return scope.insert name (← env.bindingOf scope name e)
    | none => return scope
  | .assign name e => return scope.insert name (← env.bindingOf scope name e)
  | .reserved statement => do
    .report ((Error.ofCause (.unsupportedStatement ("." ++ statement.keyword))).atNode d.print)
    return scope

/-- The scope behind all declarations. -/
def declareAll (declarations : List Declaration) : Resolution Scope :=
  declarations.foldlM env.declare .empty

/-! ### Patterns -/

/-- A formatted expression. -/
def formatExpression (scope : Scope) (e : Expression) : Resolution FormattedPart := do
  match ← env.resolve scope e with
  | .error text => return .fallback text
  | .ok resolved =>
    match env.formatResolved resolved with
    | .ok text => return .expression text
    | .error error =>
      .report (error.atNode e.print)
      return .fallback e.fallback

/-- A formatted part of a pattern. -/
def formatPart (scope : Scope) : PatternPart → Resolution FormattedPart
  | .text text => return .text text
  | .expression e => env.formatExpression scope e
  | .markup m => do
    let options ← env.resolveOptions scope m.print m.options
    return .markup m.kind m.identifier.text options

/-- The formatted parts of a pattern. -/
def formatPattern (scope : Scope) (pattern : Pattern) : Resolution (List FormattedPart) :=
  pattern.mapM (env.formatPart scope)

/-! ### Selection -/

/-- The keys that a selector matches, the best first, if it can match any. -/
def matchKeys (scope : Scope) (selector : Expression) (keys : List String) :
    Resolution (Option (List String)) := do
  match ← env.resolve scope selector with
  | .error _ => return none
  | .ok resolved =>
    match resolved.call.bind fun call => (env.registry.find? call.name).bind fun function =>
        function.select?.map fun select => (call, select) with
    | none =>
      .report ((Error.ofCause (.unselectable selector.print)).atNode selector.print)
      return none
    | some (call, select) =>
      match select resolved.operandOrNull call.options keys env.settings.locale with
      | .ok matched => return some matched
      | .error error =>
        .report (error.atNode selector.print)
        return none

/-- What each selector of a matcher matches. -/
def matchSelectors (scope : Scope) (m : Matcher) : Resolution (List (Option (List String))) :=
  m.selectors.zipIdx.mapM fun (selector, column) =>
    env.matchKeys scope selector (columnKeys m.variants column)

/-- The pattern of the best variant; without one, an empty pattern. -/
def choose (scope : Scope) (m : Matcher) : Resolution Pattern := do
  let matched ← env.matchSelectors scope m
  match (bestVariant m.variants matched).bind (m.variants[·]?) with
  | some v => return v.pattern
  | none =>
    .report ((Error.ofCause .missingFallback).atNode m.print)
    return []

/-! ### Messages -/

/-- The formatted parts of the body of a message. -/
def formatBody (scope : Scope) : MessageBody → Resolution (List FormattedPart)
  | .pattern p => env.formatPattern scope p
  | .matcher m => do env.formatPattern scope (← env.choose scope m)

/-- The parts of a formatted message. -/
def formatToParts : Message → Resolution (List FormattedPart)
  | .simple pattern => env.formatPattern .empty pattern
  | .complex declarations body => do env.formatBody (← env.declareAll declarations) body

/-- The text of a formatted message. -/
def format (message : Message) : Resolution String :=
  env.settings.join <$> env.formatToParts message

end Environment

end MessageFormat
