import MessageFormat.Message.Printing
import MessageFormat.Error

/-!
# Validity of messages

The rules of the data model that the grammar does not state.  `Message.validate` checks the parts of
a message in the order in which they are written and reports the first violation, with the text of
the node that breaks the rule and the path to it.

* `eachAfter_eq_ok_iff` : a check of all items of a list passes if it passes for each item, given
  the items before it.
-/

namespace MessageFormat

variable {α : Type}

/-! ### Checks -/

/-- Checks that a rule holds of a node. -/
def require (holds : Prop) [Decidable holds] (cause : ErrorCause) (node : String) :
    Except Error Unit :=
  if holds then .ok () else .error ((Error.ofCause cause).atNode node)

/-- A check of a part of a node, which puts the name of the part before the path. -/
def within (segment : String) (check : Except Error Unit) : Except Error Unit :=
  check.mapError (·.within segment)

/-- A check of a part of a node that may be missing. -/
def ifAny (check : α → Except Error Unit) : Option α → Except Error Unit
  | none => .ok ()
  | some a => check a

/-- A check of the items of a list in order, each given the items before it, of which those in
`earlier` are checked already. -/
def eachAfter (segment : String) (check : List α → α → Except Error Unit) (earlier : List α) :
    List α → Except Error Unit
  | [] => .ok ()
  | a :: rest => do
    within (segment ++ "[" ++ earlier.length.repr ++ "]") (check earlier a)
    eachAfter segment check (earlier ++ [a]) rest

/-- A check of the items of a list in order. -/
def each (segment : String) (check : α → Except Error Unit) (items : List α) : Except Error Unit :=
  eachAfter segment (fun _ => check) [] items

@[simp]
theorem require_eq_ok_iff {holds : Prop} [Decidable holds] {cause : ErrorCause} {node : String} :
    require holds cause node = .ok () ↔ holds := by
  unfold require
  split <;> simp_all

@[simp]
theorem within_eq_ok_iff {segment : String} {check : Except Error Unit} :
    within segment check = .ok () ↔ check = .ok () := by
  cases check with
  | ok => exact Iff.rfl
  | error e => exact ⟨fun h => (nomatch h), fun h => (nomatch h)⟩

@[simp]
theorem ifAny_eq_ok_iff {check : α → Except Error Unit} {item : Option α} :
    ifAny check item = .ok () ↔ ∀ a ∈ item, check a = .ok () := by
  cases item <;> simp [ifAny]

/-- Checks in a row pass if all of them do. -/
@[simp]
theorem andThen_eq_ok_iff {first second : Except Error Unit} :
    (do first; second) = .ok () ↔ first = .ok () ∧ second = .ok () := by
  cases first <;> simp [bind, Except.bind]

theorem eachAfter_eq_ok_iff {segment : String} {check : List α → α → Except Error Unit}
    {earlier items : List α} :
    eachAfter segment check earlier items = .ok () ↔
      ∀ before a behind, items = before ++ a :: behind → check (earlier ++ before) a = .ok () := by
  induction items generalizing earlier with
  | nil => simp [eachAfter]
  | cons item rest ih =>
    simp only [eachAfter, andThen_eq_ok_iff, within_eq_ok_iff, ih]
    constructor
    · rintro ⟨hitem, hrest⟩ before a behind h
      cases before with
      | nil =>
        obtain ⟨rfl, _⟩ := List.cons_eq_cons.1 h
        simpa using hitem
      | cons b before =>
        obtain ⟨rfl, hrest'⟩ := List.cons_eq_cons.1 h
        simpa using hrest before a behind hrest'
    · intro h
      refine ⟨by simpa using h [] item rest rfl, fun before a behind hrest => ?_⟩
      simpa using h (item :: before) a behind (by simp [hrest])

theorem each_eq_ok_iff {segment : String} {check : α → Except Error Unit} {items : List α} :
    each segment check items = .ok () ↔ ∀ a ∈ items, check a = .ok () := by
  simp only [each, eachAfter_eq_ok_iff]
  constructor
  · intro h a ha
    obtain ⟨before, behind, rfl⟩ := List.append_of_mem ha
    exact h before a behind rfl
  · rintro h before a behind rfl
    exact h a (by simp)

/-! ### Names, literals and options -/

/-- Checks that neither the name nor the namespace is empty. -/
def Identifier.check (identifier : Identifier) : Except Error Unit :=
  require (identifier.name ≠ "" ∧ identifier.qualifier ≠ some "") .emptyName identifier.text

/-- Checks that a number is finite. -/
def Literal.check : Literal → Except Error Unit
  | .number n => require (n.value.isFinite) (.nonFiniteNumber n.source) (Literal.number n).print
  | _ => .ok ()

/-- Checks that the name of a variable is not empty. -/
def checkVariableName (name : String) : Except Error Unit := require (name ≠ "") .emptyName "$"

/-- Checks the literal or the name. -/
def Operand.check : Operand → Except Error Unit
  | .literal l => l.check
  | .variableName name => checkVariableName name

/-- Checks an option, and that none before it has the same name. -/
def NamedOption.check (earlier : List NamedOption) (o : NamedOption) : Except Error Unit := do
  o.identifier.check
  o.value.check
  require (∀ other ∈ earlier, other.identifier ≠ o.identifier) (.duplicateOption o.identifier.text)
    o.identifier.text

/-- Checks the name and the value. -/
def Attribute.check (a : Attribute) : Except Error Unit := do
  a.identifier.check
  ifAny Operand.check a.value

/-- Checks the options of a function or of markup. -/
def checkOptions (options : List NamedOption) : Except Error Unit :=
  eachAfter "option" NamedOption.check [] options

/-- Checks the attributes of a placeholder. -/
def checkAttributes (attributes : List Attribute) : Except Error Unit :=
  each "attribute" Attribute.check attributes

/-! ### Expressions, markup and patterns -/

/-- The names of the variables whose values the expression takes, for its operand and for the
options of its function. -/
def Expression.reads (e : Expression) : List String :=
  e.variableName?.toList ++
    (e.call?.elim [] (·.options)).filterMap (·.value.variableName?)

/-- Checks the name and the options. -/
def FunctionCall.check (call : FunctionCall) : Except Error Unit := do
  call.identifier.check
  checkOptions call.options

/-- Checks that there is an operand or a directive, and each part. -/
def Expression.check (e : Expression) : Except Error Unit := do
  require (e.operand.isSome ∨ e.directive.isSome) .emptyExpression e.print
  within "operand" (ifAny Operand.check e.operand)
  within "function" (ifAny FunctionCall.check e.call?)
  checkAttributes e.attributes

/-- Checks the name, that closing markup has no options, and the options and attributes. -/
def Markup.check (m : Markup) : Except Error Unit :=
  within "markup" do
    m.identifier.check
    require (m.kind = .closing → m.options = []) (.closeWithOptions m.identifier.text) m.print
    checkOptions m.options
    checkAttributes m.attributes

/-- Checks a part of a pattern. -/
def PatternPart.check : PatternPart → Except Error Unit
  | .text _ => .ok ()
  | .expression e => e.check
  | .markup m => m.check

/-- Checks the parts. -/
def Pattern.check (pattern : Pattern) : Except Error Unit := each "part" PatternPart.check pattern

/-! ### Matchers -/

/-- Checks the literal, if the key is one. -/
def VariantKey.check : VariantKey → Except Error Unit
  | .literal l => l.check
  | .catchAll => .ok ()

/-- Checks that there are as many keys as the matcher has selectors and that no variant before has
the same keys, and checks the keys and the pattern. -/
def Variant.check (selectorCount : Nat) (earlier : List Variant) (v : Variant) :
    Except Error Unit := do
  require (v.keys.length = selectorCount) (.keyCountMismatch selectorCount v.keys.length) v.print
  each "literalKey" VariantKey.check v.keys
  require (∀ other ∈ earlier, other.keys.map VariantKey.text? ≠ v.keys.map VariantKey.text?)
    (.duplicateVariant (" ".intercalate (v.keys.map VariantKey.print))) v.print
  within "pattern" (Pattern.check v.pattern)

/-- Checks that there are selectors, variants and a variant that matches always, and checks each of
them. -/
def Matcher.check (m : Matcher) : Except Error Unit := do
  require (m.selectors ≠ []) .missingSelector m.print
  require (m.variants ≠ []) .missingVariant m.print
  require (∃ v ∈ m.variants, v.isFallback) .missingFallback m.print
  each "selector" Expression.check m.selectors
  eachAfter "variant" (Variant.check m.selectors.length) [] m.variants

/-! ### Declarations and messages -/

/-- The names that a declaration binds or whose values it takes. -/
def Declaration.mentions (d : Declaration) : List String :=
  d.boundName?.toList ++ d.expressions.flatMap Expression.reads

/-- Checks that none of the earlier declarations binds the name or takes its value. -/
def checkUnmentioned (earlier : List Declaration) (name : String) (node : String) :
    Except Error Unit :=
  require (∀ other ∈ earlier, name ∉ other.mentions) (.duplicateDeclaration name) node

/-- Checks the parts of a declaration, and that its variable is new. -/
def Declaration.check (earlier : List Declaration) (d : Declaration) : Except Error Unit :=
  match d with
  | .input e => do
    within "expression" e.check
    match e.variableName? with
    | some name => checkUnmentioned earlier name d.print
    | none => .error ((Error.ofCause .invalidInput).atNode d.print)
  | .assign name e => do
    within "variable" (checkVariableName name)
    within "expression" e.check
    checkUnmentioned earlier name d.print
    require (name ∉ e.reads) (.duplicateDeclaration name) d.print
  | .reserved statement => do
    require (statement.keyword ≠ "") .emptyName d.print
    each "expression" Expression.check statement.expressions

/-- Checks the pattern or the matcher. -/
def MessageBody.check : MessageBody → Except Error Unit
  | .pattern p => within "quotedPattern" (Pattern.check p)
  | .matcher m => within "matcher" m.check

/-- Checks that the message obeys the rules of the data model, and reports the first violation. -/
def Message.validate : Message → Except Error Unit
  | .simple pattern => within "simpleMessage" (Pattern.check pattern)
  | .complex declarations body =>
    within "complexMessage" do
      eachAfter "declaration" Declaration.check [] declarations
      body.check

end MessageFormat
