import MessageFormat.Message.Validity

/-!
# Valid messages

The rules of the data model, said of a message as a whole: `Message.Valid` gathers the expressions,
the markup, the names and the numbers of a message from wherever they stand and asks one thing of
each of them, without regard to the order in which they are checked.

* `Message.validate_eq_ok_iff_valid` : the check passes exactly for the valid messages.
-/

namespace MessageFormat

/-! ### The nodes of a message -/

/-- The options of the function, if there is one. -/
def Expression.options (e : Expression) : List NamedOption := e.call?.elim [] (·.options)

/-- The names of the function, its options and the attributes. -/
def Expression.identifiers (e : Expression) : List Identifier :=
  e.call?.toList.map (·.identifier) ++ e.options.map (·.identifier) ++
    e.attributes.map (·.identifier)

/-- The operand, and the values of the options and attributes. -/
def Expression.operands (e : Expression) : List Operand :=
  e.operand.toList ++ e.options.map (·.value) ++ e.attributes.filterMap (·.value)

/-- The names of the markup, its options and its attributes. -/
def Markup.identifiers (m : Markup) : List Identifier :=
  m.identifier :: m.options.map (·.identifier) ++ m.attributes.map (·.identifier)

/-- The values of the options and attributes. -/
def Markup.operands (m : Markup) : List Operand :=
  m.options.map (·.value) ++ m.attributes.filterMap (·.value)

/-- The expression that the part is. -/
def PatternPart.expression? : PatternPart → Option Expression
  | expression e => some e
  | _ => none

/-- The markup that the part is. -/
def PatternPart.markup? : PatternPart → Option Markup
  | markup m => some m
  | _ => none

/-- The number that the literal is. -/
def Literal.number? : Literal → Option NumberLiteral
  | number n => some n
  | _ => none

/-- The literal that the operand is. -/
def Operand.literal? : Operand → Option Literal
  | literal l => some l
  | variableName _ => none

/-- The literal that the key is. -/
def VariantKey.literal? : VariantKey → Option Literal
  | literal l => some l
  | catchAll => none

/-- The name of the variable of the message that the declaration makes. -/
def Declaration.assignedName? : Declaration → Option String
  | assign name _ => some name
  | _ => none

namespace Message

/-- The matcher of the message, if it chooses among patterns. -/
def matcher? : Message → Option Matcher
  | complex _ (.matcher m) => some m
  | _ => none

/-- The patterns of the message. -/
def patterns : Message → List Pattern
  | simple pattern | complex _ (.pattern pattern) => [pattern]
  | complex _ (.matcher m) => m.variants.map (·.pattern)

/-- The expressions of the message: in its declarations, selectors and patterns. -/
def expressions (m : Message) : List Expression :=
  m.declarations.flatMap Declaration.expressions ++ m.matcher?.elim [] (·.selectors) ++
    m.patterns.flatMap (·.filterMap PatternPart.expression?)

/-- The markup of the message. -/
def markups (m : Message) : List Markup := m.patterns.flatMap (·.filterMap PatternPart.markup?)

/-- The names of functions, markup, options and attributes. -/
def identifiers (m : Message) : List Identifier :=
  m.expressions.flatMap Expression.identifiers ++ m.markups.flatMap Markup.identifiers

/-- The operands of expressions, and the values of options and attributes. -/
def operands (m : Message) : List Operand :=
  m.expressions.flatMap Expression.operands ++ m.markups.flatMap Markup.operands

/-- The names of variables, where their values are taken and where the message makes them. -/
def variableNames (m : Message) : List String :=
  m.operands.filterMap Operand.variableName? ++ m.declarations.filterMap Declaration.assignedName?

/-- The keys of the variants. -/
def keys (m : Message) : List VariantKey :=
  m.matcher?.elim [] (·.variants.flatMap (·.keys))

/-- The number literals of the message: operands, values of options and attributes, and keys. -/
def numbers (m : Message) : List NumberLiteral :=
  (m.operands.filterMap Operand.literal? ++ m.keys.filterMap VariantKey.literal?).filterMap
    Literal.number?

/-- The options of each function and of each markup. -/
def optionLists (m : Message) : List (List NamedOption) :=
  m.expressions.map Expression.options ++ m.markups.map (·.options)

end Message

/-! ### Rules of the data model -/

/-- Neither the name nor the namespace is empty. -/
def Identifier.IsNamed (i : Identifier) : Prop := i.name ≠ "" ∧ i.qualifier ≠ some ""

/-- There are selectors and variants, every variant has a key for each selector, some variant has
only keys that match always, and no two variants have the same keys. -/
structure Matcher.Valid (m : Matcher) : Prop where
  /-- There is a selector. -/
  selected : m.selectors ≠ []
  /-- There is a variant. -/
  varied : m.variants ≠ []
  /-- Every variant has one key for each selector. -/
  keyed : ∀ v ∈ m.variants, v.keys.length = m.selectors.length
  /-- Some variant matches always. -/
  fallback : ∃ v ∈ m.variants, ∀ key ∈ v.keys, key = .catchAll
  /-- Keys that are compared by the same text do not occur twice. -/
  distinct : (m.variants.map fun v => v.keys.map VariantKey.text?).Nodup

/-- The rules of the data model. -/
structure Message.Valid (m : Message) : Prop where
  /-- Every expression has an operand or a directive. -/
  filled : ∀ e ∈ m.expressions, e.operand ≠ none ∨ e.directive ≠ none
  /-- No variable has an empty name. -/
  variableNames : ∀ name ∈ m.variableNames, name ≠ ""
  /-- No function, option, attribute or markup has an empty name or an empty namespace. -/
  named : ∀ i ∈ m.identifiers, i.IsNamed
  /-- Every number is finite. -/
  finite : ∀ n ∈ m.numbers, n.value.isFinite = true
  /-- No function or markup has two options of the same name. -/
  options : ∀ options ∈ m.optionLists, (options.map (·.identifier)).Nodup
  /-- Closing markup has no options. -/
  closing : ∀ markup ∈ m.markups, markup.kind = .closing → markup.options = []
  /-- The operand of an input declaration is a variable. -/
  input : ∀ e, .input e ∈ m.declarations → ∃ name, e.operand = some (.variableName name)
  /-- The keyword of a reserved statement is not empty. -/
  keyword : ∀ s, .reserved s ∈ m.declarations → s.keyword ≠ ""
  /-- No declaration binds a name that an earlier one binds or whose value it takes. -/
  unmentioned : m.declarations.Pairwise fun earlier later => ∀ name ∈ later.boundName?,
    earlier.boundName? ≠ some name ∧ ∀ e ∈ earlier.expressions, name ∉ e.reads
  /-- No variable of the message is made from its own value. -/
  unread : ∀ name e, .assign name e ∈ m.declarations → name ∉ e.reads
  /-- The matcher, if there is one, obeys its own rules. -/
  matcher : ∀ matcher ∈ m.matcher?, matcher.Valid

/-! ### Checks of lists -/

/-- What holds of each item and those before it holds of the items by pairs. -/
theorem pairwise_iff_forall_before {α : Type} {R : α → α → Prop} {items : List α} :
    items.Pairwise R ↔
      ∀ before a behind, items = before ++ a :: behind → ∀ other ∈ before, R other a := by
  constructor
  · rintro h before a behind rfl other hother
    exact (List.pairwise_append.1 h).2.2 other hother a List.mem_cons_self
  · intro h
    induction items with
    | nil => exact List.Pairwise.nil
    | cons item rest ih =>
      refine List.Pairwise.cons (fun a ha => ?_) (ih fun before a behind hrest other hother => ?_)
      · obtain ⟨before, behind, rfl⟩ := List.append_of_mem ha
        exact h (item :: before) a behind rfl item List.mem_cons_self
      · rw [hrest] at h
        exact h (item :: before) a behind rfl other (List.mem_cons_of_mem item hother)

theorem eachAfter_nil_eq_ok_iff {α : Type} {segment : String}
    {check : List α → α → Except Error Unit} {P : α → Prop} {R : α → α → Prop} {items : List α}
    (h : ∀ before a, check before a = .ok () ↔ P a ∧ ∀ other ∈ before, R other a) :
    eachAfter segment check [] items = .ok () ↔ (∀ a ∈ items, P a) ∧ items.Pairwise R := by
  rw [eachAfter_eq_ok_iff, pairwise_iff_forall_before]
  simp only [List.nil_append, h]
  constructor
  · intro hall
    refine ⟨fun a ha => ?_, fun before a behind hitems => (hall before a behind hitems).2⟩
    obtain ⟨before, behind, hitems⟩ := List.append_of_mem ha
    exact (hall before a behind hitems).1
  · rintro ⟨hP, hR⟩ before a behind rfl
    exact ⟨hP a (by simp), hR before a behind rfl⟩

/-! ### Checks of nodes -/

/-- A number is finite. -/
def Literal.IsFinite (l : Literal) : Prop := ∀ n ∈ l.number?, n.value.isFinite = true

/-- The name of a variable is not empty, and a number is finite. -/
def Operand.IsSound (o : Operand) : Prop :=
  (∀ name ∈ o.variableName?, name ≠ "") ∧ ∀ l ∈ o.literal?, l.IsFinite

theorem Identifier.check_eq_ok_iff {i : Identifier} : i.check = .ok () ↔ i.IsNamed :=
  require_eq_ok_iff

theorem Literal.check_eq_ok_iff {l : Literal} : l.check = .ok () ↔ l.IsFinite := by
  cases l <;> simp [Literal.check, Literal.IsFinite, Literal.number?]

theorem Operand.check_eq_ok_iff {o : Operand} : o.check = .ok () ↔ o.IsSound := by
  cases o with
  | literal l => simp [Operand.check, IsSound, variableName?, literal?, Literal.check_eq_ok_iff]
  | variableName name => simp [Operand.check, IsSound, variableName?, literal?, checkVariableName]

theorem NamedOption.check_eq_ok_iff {earlier : List NamedOption} {o : NamedOption} :
    o.check earlier = .ok () ↔ (o.identifier.IsNamed ∧ o.value.IsSound) ∧
      ∀ other ∈ earlier, other.identifier ≠ o.identifier := by
  simp only [NamedOption.check, andThen_eq_ok_iff, require_eq_ok_iff, Identifier.check_eq_ok_iff,
    Operand.check_eq_ok_iff, and_assoc]

theorem checkOptions_eq_ok_iff {options : List NamedOption} :
    checkOptions options = .ok () ↔
      (∀ o ∈ options, o.identifier.IsNamed ∧ o.value.IsSound) ∧
        (options.map (·.identifier)).Nodup := by
  rw [List.Nodup, List.pairwise_map]
  exact eachAfter_nil_eq_ok_iff fun _ _ => NamedOption.check_eq_ok_iff

theorem checkAttributes_eq_ok_iff {attributes : List Attribute} :
    checkAttributes attributes = .ok () ↔
      ∀ a ∈ attributes, a.identifier.IsNamed ∧ ∀ o ∈ a.value, o.IsSound := by
  simp only [checkAttributes, each_eq_ok_iff, Attribute.check, andThen_eq_ok_iff,
    ifAny_eq_ok_iff, Identifier.check_eq_ok_iff, Operand.check_eq_ok_iff]

theorem FunctionCall.check_eq_ok_iff {call : FunctionCall} :
    call.check = .ok () ↔ call.identifier.IsNamed ∧
      (∀ o ∈ call.options, o.identifier.IsNamed ∧ o.value.IsSound) ∧
        (call.options.map (·.identifier)).Nodup := by
  simp only [FunctionCall.check, andThen_eq_ok_iff, Identifier.check_eq_ok_iff,
    checkOptions_eq_ok_iff]

/-- An expression has an operand or a directive, and all that it names and takes is in order. -/
structure Expression.IsSound (e : Expression) : Prop where
  /-- There is an operand or a directive. -/
  filled : e.operand ≠ none ∨ e.directive ≠ none
  /-- No identifier is empty. -/
  named : ∀ i ∈ e.identifiers, i.IsNamed
  /-- Every operand is sound. -/
  sound : ∀ o ∈ e.operands, o.IsSound
  /-- No two options have the same name. -/
  distinct : (e.options.map (·.identifier)).Nodup

/-- All that markup names and takes is in order, and closing markup has no options. -/
structure Markup.IsSound (m : Markup) : Prop where
  /-- No identifier is empty. -/
  named : ∀ i ∈ m.identifiers, i.IsNamed
  /-- Every operand is sound. -/
  sound : ∀ o ∈ m.operands, o.IsSound
  /-- No two options have the same name. -/
  distinct : (m.options.map (·.identifier)).Nodup
  /-- Closing markup has no options. -/
  closing : m.kind = .closing → m.options = []

theorem Expression.forall_identifiers {e : Expression} {P : Identifier → Prop} :
    (∀ i ∈ e.identifiers, P i) ↔ (∀ call ∈ e.call?, P call.identifier) ∧
      (∀ o ∈ e.options, P o.identifier) ∧ ∀ a ∈ e.attributes, P a.identifier := by
  simp only [identifiers, List.forall_mem_append, List.forall_mem_map, and_assoc,
    Option.mem_toList, Option.mem_def]

theorem Expression.forall_operands {e : Expression} {P : Operand → Prop} :
    (∀ o ∈ e.operands, P o) ↔ (∀ o ∈ e.operand, P o) ∧ (∀ o ∈ e.options, P o.value) ∧
      ∀ a ∈ e.attributes, ∀ o ∈ a.value, P o := by
  simp only [operands, List.forall_mem_append, List.forall_mem_map, List.forall_mem_filterMap,
    and_assoc, Option.mem_toList, Option.mem_def]

theorem Expression.forall_call {e : Expression} {P : Identifier → Prop}
    {Q : List NamedOption → Prop} (hQ : Q []) :
    (∀ call ∈ e.call?, P call.identifier ∧ Q call.options) ↔
      (∀ call ∈ e.call?, P call.identifier) ∧ Q e.options := by
  cases h : e.call? with
  | none => simp [options, h, hQ]
  | some call => simp [options, h]

theorem Expression.check_eq_ok_iff {e : Expression} : e.check = .ok () ↔ e.IsSound := by
  simp only [Expression.check, andThen_eq_ok_iff, require_eq_ok_iff, within_eq_ok_iff,
    ifAny_eq_ok_iff, Operand.check_eq_ok_iff, FunctionCall.check_eq_ok_iff,
    checkAttributes_eq_ok_iff, Option.isSome_iff_ne_none]
  rw [forall_call (Q := fun options => (∀ o ∈ options, o.identifier.IsNamed ∧ o.value.IsSound) ∧
    (options.map (·.identifier)).Nodup) (by simp)]
  constructor
  · rintro ⟨hfilled, hoperand, ⟨hcall, hoptions, hdistinct⟩, hattributes⟩
    refine ⟨hfilled, forall_identifiers.2 ⟨hcall, fun o ho => (hoptions o ho).1, fun a ha =>
      (hattributes a ha).1⟩, forall_operands.2 ⟨hoperand, fun o ho => (hoptions o ho).2, fun a ha =>
      (hattributes a ha).2⟩, hdistinct⟩
  · rintro ⟨hfilled, hnamed, hsound, hdistinct⟩
    obtain ⟨hcall, hoptions, hattributes⟩ := forall_identifiers.1 hnamed
    obtain ⟨hoperand, hvalues, hassigned⟩ := forall_operands.1 hsound
    exact ⟨hfilled, hoperand, ⟨hcall, fun o ho => ⟨hoptions o ho, hvalues o ho⟩, hdistinct⟩,
      fun a ha => ⟨hattributes a ha, hassigned a ha⟩⟩

theorem Markup.forall_identifiers {m : Markup} {P : Identifier → Prop} :
    (∀ i ∈ m.identifiers, P i) ↔ P m.identifier ∧ (∀ o ∈ m.options, P o.identifier) ∧
      ∀ a ∈ m.attributes, P a.identifier := by
  simp only [identifiers, List.cons_append, List.forall_mem_cons, List.forall_mem_append,
    List.forall_mem_map]

theorem Markup.forall_operands {m : Markup} {P : Operand → Prop} :
    (∀ o ∈ m.operands, P o) ↔ (∀ o ∈ m.options, P o.value) ∧
      ∀ a ∈ m.attributes, ∀ o ∈ a.value, P o := by
  simp only [operands, List.forall_mem_append, List.forall_mem_map, List.forall_mem_filterMap,
    Option.mem_def]

theorem Markup.check_eq_ok_iff {m : Markup} : m.check = .ok () ↔ m.IsSound := by
  simp only [Markup.check, within_eq_ok_iff, andThen_eq_ok_iff, require_eq_ok_iff,
    Identifier.check_eq_ok_iff, checkOptions_eq_ok_iff, checkAttributes_eq_ok_iff]
  constructor
  · rintro ⟨hname, hclosing, ⟨hoptions, hdistinct⟩, hattributes⟩
    exact ⟨forall_identifiers.2 ⟨hname, fun o ho => (hoptions o ho).1, fun a ha =>
      (hattributes a ha).1⟩, forall_operands.2 ⟨fun o ho => (hoptions o ho).2, fun a ha =>
      (hattributes a ha).2⟩, hdistinct, hclosing⟩
  · rintro ⟨hnamed, hsound, hdistinct, hclosing⟩
    obtain ⟨hname, hoptions, hattributes⟩ := forall_identifiers.1 hnamed
    obtain ⟨hvalues, hassigned⟩ := forall_operands.1 hsound
    exact ⟨hname, hclosing, ⟨fun o ho => ⟨hoptions o ho, hvalues o ho⟩, hdistinct⟩,
      fun a ha => ⟨hattributes a ha, hassigned a ha⟩⟩

theorem Pattern.check_eq_ok_iff {pattern : Pattern} :
    Pattern.check pattern = .ok () ↔
      (∀ e ∈ pattern.filterMap PatternPart.expression?, e.IsSound) ∧
        ∀ m ∈ pattern.filterMap PatternPart.markup?, m.IsSound := by
  have hpart : ∀ part : PatternPart, part.check = .ok () ↔
      (∀ e ∈ part.expression?, e.IsSound) ∧ ∀ m ∈ part.markup?, m.IsSound := by
    intro part
    cases part with
    | text => simp [PatternPart.check, PatternPart.expression?, PatternPart.markup?]
    | expression e =>
      simp [PatternPart.check, PatternPart.expression?, PatternPart.markup?,
        Expression.check_eq_ok_iff]
    | markup m =>
      simp [PatternPart.check, PatternPart.expression?, PatternPart.markup?,
        Markup.check_eq_ok_iff]
  simp only [Pattern.check, each_eq_ok_iff, hpart, List.forall_mem_filterMap, forall_and,
    Option.mem_def]

/-! ### Checks of declarations and matchers -/

/-- The expressions of a declaration are in order, and so is what its kind asks for. -/
structure Declaration.IsSound (d : Declaration) : Prop where
  /-- Every expression is sound. -/
  sound : ∀ e ∈ d.expressions, e.IsSound
  /-- The name of a new variable is not empty. -/
  named : ∀ name ∈ d.assignedName?, name ≠ ""
  /-- The operand of an input declaration is a variable. -/
  input : ∀ e, d = .input e → ∃ name, e.operand = some (.variableName name)
  /-- The keyword of a reserved statement is not empty. -/
  keyword : ∀ s, d = .reserved s → s.keyword ≠ ""
  /-- A new variable is not made from its own value. -/
  unread : ∀ name e, d = .assign name e → name ∉ e.reads

/-- The later declaration binds no name that the earlier one binds or whose value it takes. -/
def Declaration.Spares (earlier later : Declaration) : Prop :=
  ∀ name ∈ later.boundName?,
    earlier.boundName? ≠ some name ∧ ∀ e ∈ earlier.expressions, name ∉ e.reads

theorem checkUnmentioned_eq_ok_iff {earlier : List Declaration} {name node : String} :
    checkUnmentioned earlier name node = .ok () ↔ ∀ other ∈ earlier,
      other.boundName? ≠ some name ∧ ∀ e ∈ other.expressions, name ∉ e.reads := by
  simp only [checkUnmentioned, require_eq_ok_iff, Declaration.mentions, List.mem_append,
    Option.mem_toList, List.mem_flatMap, not_or, not_exists, not_and]

theorem Operand.variableName?_eq_some_iff {o : Operand} {name : String} :
    o.variableName? = some name ↔ o = .variableName name := by
  cases o <;> simp [variableName?]

theorem Expression.variableName?_eq_some_iff {e : Expression} {name : String} :
    e.variableName? = some name ↔ e.operand = some (.variableName name) := by
  rw [variableName?, Option.bind_eq_some_iff]
  simp only [Operand.variableName?_eq_some_iff, exists_eq_right]

theorem Declaration.check_eq_ok_iff {earlier : List Declaration} {d : Declaration} :
    d.check earlier = .ok () ↔ d.IsSound ∧ ∀ other ∈ earlier, other.Spares d := by
  cases d with
  | input e =>
    cases hname : e.variableName? with
    | none =>
      simp only [Declaration.check, hname, andThen_eq_ok_iff, reduceCtorEq, and_false, false_iff,
        not_and]
      intro hsound
      obtain ⟨name, hoperand⟩ := hsound.input e rfl
      rw [Expression.variableName?_eq_some_iff.2 hoperand] at hname
      cases hname
    | some name =>
      have hoperand := Expression.variableName?_eq_some_iff.1 hname
      simp only [Declaration.check, hname, andThen_eq_ok_iff, within_eq_ok_iff,
        Expression.check_eq_ok_iff, checkUnmentioned_eq_ok_iff, Spares, boundName?, Option.mem_def,
        Option.some.injEq, forall_eq']
      refine and_congr_left fun _ => ⟨fun he => ?_, fun hsound => hsound.sound e (by
        simp [expressions])⟩
      exact ⟨by simpa [expressions] using he, by simp [assignedName?],
        fun e' h => ⟨name, by cases h; exact hoperand⟩, by rintro _ ⟨⟩, by rintro _ _ ⟨⟩⟩
  | assign name e =>
    simp only [Declaration.check, andThen_eq_ok_iff, within_eq_ok_iff, checkVariableName,
      require_eq_ok_iff, Expression.check_eq_ok_iff, checkUnmentioned_eq_ok_iff, Spares, boundName?,
      Option.mem_def, Option.some.injEq, forall_eq']
    constructor
    · rintro ⟨hname, he, hspares, hunread⟩
      exact ⟨⟨by simpa [expressions] using he, by simpa [assignedName?] using hname,
        by rintro _ ⟨⟩, by rintro _ ⟨⟩, fun name' e' h => by cases h; exact hunread⟩, hspares⟩
    · rintro ⟨hsound, hspares⟩
      exact ⟨hsound.named name rfl, hsound.sound e (by simp [expressions]), hspares,
        hsound.unread name e rfl⟩
  | reserved s =>
    simp only [Declaration.check, andThen_eq_ok_iff, require_eq_ok_iff, each_eq_ok_iff,
      Expression.check_eq_ok_iff]
    constructor
    · rintro ⟨hkeyword, hsound⟩
      exact ⟨⟨hsound, by rintro _ ⟨⟩, by rintro _ ⟨⟩, fun s' h => by cases h; exact hkeyword,
        by rintro _ _ ⟨⟩⟩, by simp [Spares, boundName?]⟩
    · rintro ⟨hsound, -⟩
      exact ⟨hsound.keyword s rfl, hsound.sound⟩

theorem Variant.isFallback_iff {v : Variant} :
    v.isFallback = true ↔ ∀ key ∈ v.keys, key = .catchAll := by
  simp only [isFallback, List.all_eq_true]
  refine forall₂_congr fun key _ => ?_
  cases key <;> simp [VariantKey.isCatchAll]

theorem VariantKey.check_eq_ok_iff {key : VariantKey} :
    key.check = .ok () ↔ ∀ l ∈ key.literal?, l.IsFinite := by
  cases key <;> simp [VariantKey.check, literal?, Literal.check_eq_ok_iff]

theorem Variant.check_eq_ok_iff {count : Nat} {earlier : List Variant} {v : Variant} :
    v.check count earlier = .ok () ↔
      (v.keys.length = count ∧ (∀ key ∈ v.keys, ∀ l ∈ key.literal?, l.IsFinite) ∧
        Pattern.check v.pattern = .ok ()) ∧
      ∀ other ∈ earlier, other.keys.map VariantKey.text? ≠ v.keys.map VariantKey.text? := by
  simp only [Variant.check, andThen_eq_ok_iff, require_eq_ok_iff, each_eq_ok_iff, within_eq_ok_iff,
    VariantKey.check_eq_ok_iff]
  constructor
  · rintro ⟨hcount, hkeys, hdistinct, hpattern⟩
    exact ⟨⟨hcount, hkeys, hpattern⟩, hdistinct⟩
  · rintro ⟨⟨hcount, hkeys, hpattern⟩, hdistinct⟩
    exact ⟨hcount, hkeys, hdistinct, hpattern⟩

theorem Matcher.check_eq_ok_iff {m : Matcher} :
    m.check = .ok () ↔ m.Valid ∧ (∀ e ∈ m.selectors, e.IsSound) ∧
      (∀ v ∈ m.variants, ∀ key ∈ v.keys, ∀ l ∈ key.literal?, l.IsFinite) ∧
        ∀ v ∈ m.variants, Pattern.check v.pattern = .ok () := by
  have hvariants : eachAfter "variant" (Variant.check m.selectors.length) [] m.variants = .ok () ↔
      _ := eachAfter_nil_eq_ok_iff fun _ _ => Variant.check_eq_ok_iff
  simp only [Matcher.check, andThen_eq_ok_iff, require_eq_ok_iff, each_eq_ok_iff, hvariants,
    Variant.isFallback_iff, Expression.check_eq_ok_iff]
  constructor
  · rintro ⟨hselected, hvaried, hfallback, hselectors, hall, hdistinct⟩
    refine ⟨⟨hselected, hvaried, fun v hv => (hall v hv).1, hfallback, ?_⟩, hselectors,
      fun v hv => (hall v hv).2.1, fun v hv => (hall v hv).2.2⟩
    rw [List.Nodup, List.pairwise_map]
    exact hdistinct
  · rintro ⟨⟨hselected, hvaried, hkeyed, hfallback, hdistinct⟩, hselectors, hkeys, hpatterns⟩
    rw [List.Nodup, List.pairwise_map] at hdistinct
    exact ⟨hselected, hvaried, hfallback, hselectors, fun v hv => ⟨hkeyed v hv, hkeys v hv,
      hpatterns v hv⟩, hdistinct⟩

/-! ### The check of a message -/

theorem Message.validate_eq_ok_iff {m : Message} :
    m.validate = .ok () ↔
      ((∀ d ∈ m.declarations, d.IsSound) ∧ m.declarations.Pairwise Declaration.Spares) ∧
        (∀ matcher ∈ m.matcher?, matcher.Valid ∧ (∀ e ∈ matcher.selectors, e.IsSound) ∧
          ∀ v ∈ matcher.variants, ∀ key ∈ v.keys, ∀ l ∈ key.literal?, l.IsFinite) ∧
        ∀ pattern ∈ m.patterns, Pattern.check pattern = .ok () := by
  cases m with
  | simple pattern => simp [validate, declarations, matcher?, patterns]
  | complex declarations body =>
    have hdeclarations : eachAfter "declaration" Declaration.check [] declarations = .ok () ↔ _ :=
      eachAfter_nil_eq_ok_iff fun _ _ => Declaration.check_eq_ok_iff
    cases body with
    | pattern pattern =>
      simp [validate, Message.declarations, matcher?, patterns, hdeclarations, MessageBody.check]
    | matcher matcher =>
      simp [validate, Message.declarations, matcher?, patterns, hdeclarations, MessageBody.check,
        Matcher.check_eq_ok_iff, and_assoc]

theorem Message.forall_expressions {m : Message} {P : Expression → Prop} :
    (∀ e ∈ m.expressions, P e) ↔ (∀ d ∈ m.declarations, ∀ e ∈ d.expressions, P e) ∧
      (∀ matcher ∈ m.matcher?, ∀ e ∈ matcher.selectors, P e) ∧
        ∀ pattern ∈ m.patterns, ∀ e ∈ pattern.filterMap PatternPart.expression?, P e := by
  simp only [expressions, List.forall_mem_append, List.forall_mem_flatMap, and_assoc]
  cases m.matcher? <;> simp

theorem Message.forall_variableNames {m : Message} {P : String → Prop} :
    (∀ name ∈ m.variableNames, P name) ↔ (∀ o ∈ m.operands, ∀ name ∈ o.variableName?, P name) ∧
      ∀ d ∈ m.declarations, ∀ name ∈ d.assignedName?, P name := by
  simp only [variableNames, List.forall_mem_append, List.forall_mem_filterMap, Option.mem_def]

theorem Message.forall_numbers {m : Message} {P : NumberLiteral → Prop} :
    (∀ n ∈ m.numbers, P n) ↔ (∀ o ∈ m.operands, ∀ l ∈ o.literal?, ∀ n ∈ l.number?, P n) ∧
      ∀ key ∈ m.keys, ∀ l ∈ key.literal?, ∀ n ∈ l.number?, P n := by
  simp only [numbers, List.forall_mem_append, List.forall_mem_filterMap, Option.mem_def]

theorem Message.forall_keys {m : Message} {P : VariantKey → Prop} :
    (∀ key ∈ m.keys, P key) ↔
      ∀ matcher ∈ m.matcher?, ∀ v ∈ matcher.variants, ∀ key ∈ v.keys, P key := by
  unfold keys
  cases m.matcher? with
  | none => simp
  | some matcher =>
    simp only [Option.elim_some, List.forall_mem_flatMap, Option.mem_def, Option.some.injEq,
      forall_eq']

theorem Message.forall_optionLists {m : Message} {P : List NamedOption → Prop} :
    (∀ options ∈ m.optionLists, P options) ↔
      (∀ e ∈ m.expressions, P e.options) ∧ ∀ markup ∈ m.markups, P markup.options := by
  simp only [optionLists, List.forall_mem_append, List.forall_mem_map]

theorem Message.Valid.of_isSound {m : Message} (hexpressions : ∀ e ∈ m.expressions, e.IsSound)
    (hmarkups : ∀ k ∈ m.markups, k.IsSound) (hdeclarations : ∀ d ∈ m.declarations, d.IsSound)
    (hspares : m.declarations.Pairwise Declaration.Spares)
    (hmatcher : ∀ matcher ∈ m.matcher?, matcher.Valid)
    (hkeys : ∀ key ∈ m.keys, ∀ l ∈ key.literal?, l.IsFinite) : m.Valid := by
  have hoperands : ∀ o ∈ m.operands, o.IsSound :=
    List.forall_mem_append.2 ⟨List.forall_mem_flatMap.2 fun e he => (hexpressions e he).sound,
      List.forall_mem_flatMap.2 fun k hk => (hmarkups k hk).sound⟩
  refine ⟨fun e he => (hexpressions e he).filled, ?_, ?_, ?_, ?_,
    fun k hk => (hmarkups k hk).closing, fun e he => (hdeclarations _ he).input e rfl,
    fun s hs => (hdeclarations _ hs).keyword s rfl, hspares,
    fun name e he => (hdeclarations _ he).unread name e rfl, hmatcher⟩
  · exact forall_variableNames.2 ⟨fun o ho => (hoperands o ho).1, fun d hd =>
      (hdeclarations d hd).named⟩
  · exact List.forall_mem_append.2 ⟨List.forall_mem_flatMap.2 fun e he => (hexpressions e he).named,
      List.forall_mem_flatMap.2 fun k hk => (hmarkups k hk).named⟩
  · exact forall_numbers.2 ⟨fun o ho => (hoperands o ho).2, hkeys⟩
  · exact forall_optionLists.2 ⟨fun e he => (hexpressions e he).distinct, fun k hk =>
      (hmarkups k hk).distinct⟩

namespace Message.Valid

variable {m : Message}

theorem isSound_of_mem_operands (h : m.Valid) {o : Operand} (ho : o ∈ m.operands) : o.IsSound :=
  ⟨(forall_variableNames.1 h.variableNames).1 o ho, (forall_numbers.1 h.finite).1 o ho⟩

theorem isSound_of_mem_expressions (h : m.Valid) {e : Expression} (he : e ∈ m.expressions) :
    e.IsSound := by
  refine ⟨h.filled e he, fun i hi => h.named i ?_, fun o ho => h.isSound_of_mem_operands ?_,
    (forall_optionLists.1 h.options).1 e he⟩
  · exact List.mem_append_left _ (List.mem_flatMap_of_mem he hi)
  · exact List.mem_append_left _ (List.mem_flatMap_of_mem he ho)

theorem isSound_of_mem_markups (h : m.Valid) {k : Markup} (hk : k ∈ m.markups) : k.IsSound := by
  refine ⟨fun i hi => h.named i ?_, fun o ho => h.isSound_of_mem_operands ?_,
    (forall_optionLists.1 h.options).2 k hk, h.closing k hk⟩
  · exact List.mem_append_right _ (List.mem_flatMap_of_mem hk hi)
  · exact List.mem_append_right _ (List.mem_flatMap_of_mem hk ho)

theorem isSound_of_mem_declarations (h : m.Valid) {d : Declaration} (hd : d ∈ m.declarations) :
    d.IsSound := by
  refine ⟨(forall_expressions.1 fun e he => h.isSound_of_mem_expressions he).1 d hd,
    (forall_variableNames.1 h.variableNames).2 d hd, ?_, ?_, ?_⟩
  · rintro e rfl
    exact h.input e hd
  · rintro s rfl
    exact h.keyword s hd
  · rintro name e rfl
    exact h.unread name e hd

end Message.Valid

/-- **The check of a message passes exactly for the valid messages.** -/
theorem Message.validate_eq_ok_iff_valid {m : Message} : m.validate = .ok () ↔ m.Valid := by
  rw [validate_eq_ok_iff]
  constructor
  · rintro ⟨⟨hdeclarations, hspares⟩, hmatcher, hpatterns⟩
    have hexpressions : ∀ e ∈ m.expressions, e.IsSound :=
      forall_expressions.2 ⟨fun d hd => (hdeclarations d hd).sound,
        fun matcher h => (hmatcher matcher h).2.1,
        fun pattern h => (Pattern.check_eq_ok_iff.1 (hpatterns pattern h)).1⟩
    have hmarkups : ∀ k ∈ m.markups, k.IsSound := List.forall_mem_flatMap.2 fun pattern h =>
      (Pattern.check_eq_ok_iff.1 (hpatterns pattern h)).2
    exact .of_isSound hexpressions hmarkups hdeclarations hspares
      (fun matcher h => (hmatcher matcher h).1)
      (forall_keys.2 fun matcher h => (hmatcher matcher h).2.2)
  · intro h
    have hexpressions := forall_expressions.1 fun e he => h.isSound_of_mem_expressions he
    refine ⟨⟨fun d hd => h.isSound_of_mem_declarations hd, h.unmentioned⟩, fun matcher hm => ?_,
      fun pattern hp => ?_⟩
    · exact ⟨h.matcher matcher hm, hexpressions.2.1 matcher hm,
        forall_keys.1 (forall_numbers.1 h.finite).2 matcher hm⟩
    · exact Pattern.check_eq_ok_iff.2 ⟨hexpressions.2.2 pattern hp, fun k hk =>
        h.isSound_of_mem_markups (List.mem_flatMap_of_mem hp hk)⟩

end MessageFormat
