import Mathlib.Data.List.Duplicate
import MessageFormat.Proofs.Validity

/-!
# Broken rules

The check of a message reports the first violation that it finds.  What it reports is one: the
message does break the rule that the cause of the error is about, at a node that the cause names.
So a message that cannot break some rule is never rejected for it.

* `FailsWith` : what is known of the errors that a check fails with, through its steps;
* `Message.Breaks` : the rule that each cause is about is broken;
* `Message.breaks_of_validate`, `Message.exists_node_of_validate` : the check reports broken rules
  only, each with the text of the node that breaks it.
-/

namespace MessageFormat

variable {α : Type} {P : ErrorCause → Prop}

/-! ### Causes of a failure -/

/-- If the outcome is an error, then `P` holds of its cause, and it tells the text of a node. -/
def FailsWith (P : ErrorCause → Prop) (outcome : Except Error α) : Prop :=
  ∀ error, outcome = .error error → P error.cause ∧ ∃ node, error.node = some node

namespace FailsWith

theorem ok (a : α) : FailsWith P (.ok a) := nofun

theorem error {cause : ErrorCause} {node : String} (h : P cause) :
    FailsWith P (.error ((Error.ofCause cause).atNode node) : Except Error α) := by
  rintro _ ⟨⟩
  exact ⟨h, node, rfl⟩

theorem require {holds : Prop} [Decidable holds] {cause : ErrorCause} {node : String}
    (h : ¬ holds → P cause) : FailsWith P (require holds cause node) := by
  unfold MessageFormat.require
  split
  · exact ok ()
  · rename_i hbroken
    exact error (h hbroken)

theorem andThen {first second : Except Error Unit} (hfirst : FailsWith P first)
    (hsecond : FailsWith P second) : FailsWith P (do first; second) := by
  cases first with
  | error e => exact fun _ h => by cases h; exact hfirst e rfl
  | ok => exact hsecond

theorem within {check : Except Error Unit} (h : FailsWith P check) (segment : String) :
    FailsWith P (within segment check) := by
  cases check with
  | error e =>
    rintro _ ⟨⟩
    obtain ⟨hcause, node, hnode⟩ := h e rfl
    exact ⟨hcause, node, by rw [Error.node_within, hnode]⟩
  | ok => exact ok ()

theorem ifAny {check : α → Except Error Unit} {item : Option α}
    (h : ∀ a ∈ item, FailsWith P (check a)) : FailsWith P (ifAny check item) := by
  cases item with
  | none => exact ok ()
  | some a => exact h a rfl

/-- The check of an item may make use of what the items before it are. -/
theorem eachAfter {check : List α → α → Except Error Unit} {segment : String}
    {earlier items : List α}
    (h : ∀ before a behind, items = before ++ a :: behind →
      FailsWith P (check (earlier ++ before) a)) :
    FailsWith P (eachAfter segment check earlier items) := by
  induction items generalizing earlier with
  | nil => exact ok ()
  | cons item rest ih =>
    have hitem := h [] item rest rfl
    rw [List.append_nil] at hitem
    refine (hitem.within _).andThen (ih fun before a behind hrest => ?_)
    have ha := h (item :: before) a behind (by rw [hrest, List.cons_append])
    rwa [← List.singleton_append, ← List.append_assoc] at ha

theorem each {check : α → Except Error Unit} {segment : String} {items : List α}
    (h : ∀ a ∈ items, FailsWith P (check a)) : FailsWith P (each segment check items) :=
  eachAfter fun _ a _ hitems => h a (hitems ▸ List.mem_append_right _ List.mem_cons_self)

end FailsWith

/-! ### Rules -/

/-- The message breaks the rule that the cause is about, at a node that the cause names.  No message
breaks the rules of other stages. -/
def Message.Breaks (m : Message) : ErrorCause → Prop
  | .emptyName => "" ∈ m.variableNames ∨ (∃ i ∈ m.identifiers, ¬ i.IsNamed) ∨
      ∃ statement, .reserved statement ∈ m.declarations ∧ statement.keyword = ""
  | .nonFiniteNumber source => ∃ n ∈ m.numbers, n.source = source ∧ n.value.isFinite = false
  | .emptyExpression => ∃ e ∈ m.expressions, e.operand = none ∧ e.directive = none
  | .invalidInput => ∃ e, .input e ∈ m.declarations ∧ e.variableName? = none
  | .missingSelector => ∃ matcher ∈ m.matcher?, matcher.selectors = []
  | .missingVariant => ∃ matcher ∈ m.matcher?, matcher.variants = []
  | .keyCountMismatch expected actual => ∃ matcher ∈ m.matcher?, ∃ v ∈ matcher.variants,
      matcher.selectors.length = expected ∧ v.keys.length = actual ∧ actual ≠ expected
  | .missingFallback => ∃ matcher ∈ m.matcher?, ∀ v ∈ matcher.variants, v.isFallback = false
  | .duplicateDeclaration name =>
      (∃ before d behind, m.declarations = before ++ d :: behind ∧ name ∈ d.boundName? ∧
        ∃ earlier ∈ before, name ∈ earlier.mentions) ∨
      ∃ e, .assign name e ∈ m.declarations ∧ name ∈ e.reads
  | .duplicateOption name => ∃ options ∈ m.optionLists, ∃ i : Identifier,
      List.Duplicate i (options.map (·.identifier)) ∧ i.text = name
  | .duplicateVariant keys => ∃ matcher ∈ m.matcher?, ∃ v ∈ matcher.variants,
      List.Duplicate (v.keys.map VariantKey.text?)
        (matcher.variants.map fun v => v.keys.map VariantKey.text?) ∧
      " ".intercalate (v.keys.map VariantKey.print) = keys
  | .closeWithOptions name => ∃ markup ∈ m.markups, markup.kind = .closing ∧
      markup.options ≠ [] ∧ markup.identifier.text = name
  | .illegal .. | .unexpected .. | .unknownFunction _ | .unresolvedVariable _
  | .unsupportedExpression _ | .unsupportedStatement _ | .unselectable _ | .badOperand ..
  | .badOption .. | .badSelector .. | .badKey .. => False

/-- What an earlier item has as well as an item of a list is there twice. -/
theorem duplicate_map_of_before {β : Type} {f : α → β} {before behind : List α} {a : α}
    (h : ∃ earlier ∈ before, f earlier = f a) :
    List.Duplicate (f a) ((before ++ a :: behind).map f) := by
  obtain ⟨earlier, hmem, heq⟩ := h
  have hbefore : [f a].Sublist (before.map f) :=
    List.singleton_sublist.2 (List.mem_map.2 ⟨earlier, hmem, heq⟩)
  have hbehind : [f a].Sublist (f a :: behind.map f) :=
    List.singleton_sublist.2 List.mem_cons_self
  rw [List.map_append, List.map_cons, List.duplicate_iff_sublist]
  exact hbefore.append hbehind

/-! ### Checks of nodes -/

section Checks

variable {m : Message}

theorem Identifier.failsWith_check {i : Identifier} (hi : i ∈ m.identifiers) :
    FailsWith m.Breaks i.check :=
  .require fun hbroken => .inr (.inl ⟨i, hi, hbroken⟩)

theorem Literal.failsWith_check {l : Literal} (hl : ∀ n ∈ l.number?, n ∈ m.numbers) :
    FailsWith m.Breaks l.check := by
  cases l with
  | number n =>
    exact .require fun hbroken => ⟨n, hl n rfl, rfl, Bool.eq_false_iff.2 hbroken⟩
  | quoted | name => exact .ok ()

theorem failsWith_checkVariableName {name : String} (h : name ∈ m.variableNames) :
    FailsWith m.Breaks (checkVariableName name) :=
  .require fun hbroken => .inl (not_not.1 hbroken ▸ h)

theorem Operand.failsWith_check {o : Operand} (ho : o ∈ m.operands) :
    FailsWith m.Breaks o.check := by
  have hnames := (Message.forall_variableNames (P := (· ∈ m.variableNames)).1 fun _ => id).1 o ho
  have hnumbers := (Message.forall_numbers (P := (· ∈ m.numbers)).1 fun _ => id).1 o ho
  cases o with
  | literal l => exact Literal.failsWith_check (hnumbers l rfl)
  | variableName name => exact failsWith_checkVariableName (hnames name rfl)

theorem failsWith_checkOptions {options : List NamedOption} (hlist : options ∈ m.optionLists)
    (hidentifier : ∀ o ∈ options, o.identifier ∈ m.identifiers)
    (hvalue : ∀ o ∈ options, o.value ∈ m.operands) : FailsWith m.Breaks (checkOptions options) := by
  refine .eachAfter fun before o behind hoptions => ?_
  have ho : o ∈ options := hoptions ▸ List.mem_append_right _ List.mem_cons_self
  refine (Identifier.failsWith_check (hidentifier o ho)).andThen ?_
  refine (Operand.failsWith_check (hvalue o ho)).andThen (.require fun hbroken => ?_)
  simp only [List.nil_append, not_forall, not_not] at hbroken
  obtain ⟨earlier, hmem, heq⟩ := hbroken
  refine ⟨options, hlist, o.identifier, ?_, rfl⟩
  rw [hoptions]
  exact duplicate_map_of_before ⟨earlier, hmem, heq⟩

theorem failsWith_checkAttributes {attributes : List Attribute}
    (hidentifier : ∀ a ∈ attributes, a.identifier ∈ m.identifiers)
    (hvalue : ∀ a ∈ attributes, ∀ o ∈ a.value, o ∈ m.operands) :
    FailsWith m.Breaks (checkAttributes attributes) := by
  refine .each fun a ha => ?_
  refine (Identifier.failsWith_check (hidentifier a ha)).andThen ?_
  exact .ifAny fun o ho => Operand.failsWith_check (hvalue a ha o ho)

theorem Expression.mem_identifiers {e : Expression} (he : e ∈ m.expressions) :
    ∀ i ∈ e.identifiers, i ∈ m.identifiers :=
  fun _ hi => List.mem_append_left _ (List.mem_flatMap_of_mem he hi)

theorem Expression.mem_operands {e : Expression} (he : e ∈ m.expressions) :
    ∀ o ∈ e.operands, o ∈ m.operands :=
  fun _ ho => List.mem_append_left _ (List.mem_flatMap_of_mem he ho)

theorem FunctionCall.failsWith_check {e : Expression} (he : e ∈ m.expressions)
    {call : FunctionCall} (hcall : e.call? = some call) : FailsWith m.Breaks call.check := by
  obtain ⟨hname, hoptions, -⟩ :=
    Expression.forall_identifiers.1 (Expression.mem_identifiers he)
  obtain ⟨-, hvalues, -⟩ := Expression.forall_operands.1 (Expression.mem_operands he)
  have hlist : e.options ∈ m.optionLists := List.mem_append_left _ (List.mem_map_of_mem he)
  have heq : e.options = call.options := by rw [Expression.options, hcall, Option.elim_some]
  rw [heq] at hoptions hvalues hlist
  exact (Identifier.failsWith_check (hname call hcall)).andThen
    (failsWith_checkOptions hlist hoptions hvalues)

theorem Expression.failsWith_check {e : Expression} (he : e ∈ m.expressions) :
    FailsWith m.Breaks e.check := by
  obtain ⟨-, -, hattributes⟩ := forall_identifiers.1 (mem_identifiers he)
  obtain ⟨hoperand, -, hassigned⟩ := forall_operands.1 (mem_operands he)
  refine FailsWith.andThen (.require fun hbroken => ?_) ?_
  · simp only [not_or, Option.not_isSome_iff_eq_none] at hbroken
    exact ⟨e, he, hbroken⟩
  refine FailsWith.andThen (.within (.ifAny fun o ho => ?_) _) ?_
  · exact Operand.failsWith_check (hoperand o ho)
  refine FailsWith.andThen (.within (.ifAny fun call hcall => ?_) _) ?_
  · exact FunctionCall.failsWith_check he hcall
  exact failsWith_checkAttributes hattributes hassigned

theorem Markup.failsWith_check {k : Markup} (hk : k ∈ m.markups) :
    FailsWith m.Breaks k.check := by
  have hidentifiers : ∀ i ∈ k.identifiers, i ∈ m.identifiers :=
    fun i hi => List.mem_append_right _ (List.mem_flatMap_of_mem hk hi)
  have hoperands : ∀ o ∈ k.operands, o ∈ m.operands :=
    fun o ho => List.mem_append_right _ (List.mem_flatMap_of_mem hk ho)
  have hlist : k.options ∈ m.optionLists := List.mem_append_right _ (List.mem_map_of_mem hk)
  obtain ⟨hname, hoptions, hattributes⟩ := forall_identifiers.1 hidentifiers
  obtain ⟨hvalues, hassigned⟩ := forall_operands.1 hoperands
  refine .within ((Identifier.failsWith_check hname).andThen ?_) _
  refine FailsWith.andThen (.require fun hbroken => ?_) ?_
  · rw [Classical.not_imp] at hbroken
    exact ⟨k, hk, hbroken.1, hbroken.2, rfl⟩
  exact (failsWith_checkOptions hlist hoptions hvalues).andThen
    (failsWith_checkAttributes hattributes hassigned)

theorem Pattern.failsWith_check {pattern : Pattern} (hpattern : pattern ∈ m.patterns) :
    FailsWith m.Breaks (Pattern.check pattern) := by
  refine .each fun part hpart => ?_
  cases part with
  | text => exact .ok ()
  | expression e =>
    refine Expression.failsWith_check (List.mem_append_right _ ?_)
    exact List.mem_flatMap_of_mem hpattern (List.mem_filterMap.2 ⟨_, hpart, rfl⟩)
  | markup k =>
    refine Markup.failsWith_check ?_
    exact List.mem_flatMap_of_mem hpattern (List.mem_filterMap.2 ⟨_, hpart, rfl⟩)

theorem VariantKey.failsWith_check {key : VariantKey} (hkey : key ∈ m.keys) :
    FailsWith m.Breaks key.check := by
  have hnumbers := (Message.forall_numbers (P := (· ∈ m.numbers)).1 fun _ => id).2 key hkey
  cases key with
  | literal l => exact Literal.failsWith_check (hnumbers l rfl)
  | catchAll => exact .ok ()

/-- The check of a variant takes those before it into account. -/
theorem Variant.failsWith_check {matcher : Matcher} (hmatcher : matcher ∈ m.matcher?)
    {before behind : List Variant} {v : Variant}
    (hvariants : matcher.variants = before ++ v :: behind) (hpattern : v.pattern ∈ m.patterns) :
    FailsWith m.Breaks (v.check matcher.selectors.length before) := by
  have hv : v ∈ matcher.variants := hvariants ▸ List.mem_append_right _ List.mem_cons_self
  have hkeys := Message.forall_keys (P := (· ∈ m.keys)).1 (fun _ => id) matcher hmatcher v hv
  refine FailsWith.andThen (.require fun hbroken => ?_) ?_
  · exact ⟨matcher, hmatcher, v, hv, rfl, rfl, hbroken⟩
  refine FailsWith.andThen (.each fun key hkey => VariantKey.failsWith_check (hkeys key hkey)) ?_
  refine FailsWith.andThen (.require fun hbroken => ?_) ?_
  · simp only [not_forall, not_not] at hbroken
    obtain ⟨earlier, hmem, heq⟩ := hbroken
    refine ⟨matcher, hmatcher, v, hv, ?_, rfl⟩
    rw [hvariants]
    exact duplicate_map_of_before (f := fun v : Variant => v.keys.map VariantKey.text?)
      ⟨earlier, hmem, heq⟩
  exact .within (Pattern.failsWith_check hpattern) _

theorem Matcher.failsWith_check {matcher : Matcher} (hmatcher : matcher ∈ m.matcher?)
    (hpatterns : ∀ v ∈ matcher.variants, v.pattern ∈ m.patterns) :
    FailsWith m.Breaks matcher.check := by
  have hexpressions := (Message.forall_expressions (P := (· ∈ m.expressions)).1 fun _ => id).2.1
    matcher hmatcher
  refine FailsWith.andThen (.require fun hbroken => ⟨matcher, hmatcher, not_not.1 hbroken⟩) ?_
  refine FailsWith.andThen (.require fun hbroken => ⟨matcher, hmatcher, not_not.1 hbroken⟩) ?_
  refine FailsWith.andThen (.require fun hbroken => ⟨matcher, hmatcher, fun v hv => ?_⟩) ?_
  · exact Bool.eq_false_iff.2 fun h => hbroken ⟨v, hv, h⟩
  refine FailsWith.andThen (.each fun e he => Expression.failsWith_check (hexpressions e he)) ?_
  refine .eachAfter fun before v behind hvariants => ?_
  have hv : v ∈ matcher.variants := hvariants ▸ List.mem_append_right _ List.mem_cons_self
  exact Variant.failsWith_check hmatcher hvariants (hpatterns v hv)

/-- The check of a declaration takes those before it into account. -/
theorem Declaration.failsWith_check {before behind : List Declaration} {d : Declaration}
    (hd : m.declarations = before ++ d :: behind) : FailsWith m.Breaks (d.check before) := by
  have hmem : d ∈ m.declarations := hd ▸ List.mem_append_right _ List.mem_cons_self
  have hexpressions : ∀ e ∈ d.expressions, FailsWith m.Breaks e.check := fun e he =>
    Expression.failsWith_check
      ((Message.forall_expressions (P := (· ∈ m.expressions)).1 fun _ => id).1 d hmem e he)
  have hunmentioned : ∀ name ∈ d.boundName?, ∀ node,
      FailsWith m.Breaks (checkUnmentioned before name node) := by
    refine fun name hname node => .require fun hbroken => .inl ⟨before, d, behind, hd, hname, ?_⟩
    simpa only [not_forall, not_not, exists_prop] using hbroken
  cases d with
  | input e =>
    refine FailsWith.andThen (.within (hexpressions e (List.mem_singleton_self e)) _) ?_
    split
    · rename_i name hname
      exact hunmentioned name hname _
    · rename_i hname
      exact .error ⟨e, hmem, hname⟩
  | assign name e =>
    have hname : name ∈ m.variableNames :=
      (Message.forall_variableNames (P := (· ∈ m.variableNames)).1 fun _ => id).2 _ hmem name rfl
    refine FailsWith.andThen (.within (failsWith_checkVariableName hname) _) ?_
    refine FailsWith.andThen (.within (hexpressions e (List.mem_singleton_self e)) _) ?_
    refine FailsWith.andThen (hunmentioned name rfl _) (.require fun hbroken => ?_)
    exact .inr ⟨e, hmem, not_not.1 hbroken⟩
  | reserved statement =>
    refine FailsWith.andThen (.require fun hbroken => ?_) (.each hexpressions)
    exact .inr (.inr ⟨statement, hmem, not_not.1 hbroken⟩)

end Checks

theorem Message.failsWith_validate (m : Message) : FailsWith m.Breaks m.validate := by
  cases m with
  | simple pattern => exact .within (Pattern.failsWith_check List.mem_cons_self) _
  | complex declarations body =>
    refine .within (.andThen (.eachAfter fun before d behind hd => ?_) ?_) _
    · exact Declaration.failsWith_check hd
    · cases body with
      | pattern pattern => exact .within (Pattern.failsWith_check List.mem_cons_self) _
      | matcher matcher =>
        exact .within (Matcher.failsWith_check rfl fun v hv => List.mem_map_of_mem hv) _

/-- **The check of a message reports broken rules only.** -/
theorem Message.breaks_of_validate {m : Message} {e : Error} (h : m.validate = .error e) :
    m.Breaks e.cause :=
  (m.failsWith_validate e h).1

/-- The error of a message tells the text of a node. -/
theorem Message.exists_node_of_validate {m : Message} {e : Error} (h : m.validate = .error e) :
    ∃ node, e.node = some node :=
  (m.failsWith_validate e h).2

/-- A message breaks rules of the data model only. -/
theorem Message.Breaks.tier {m : Message} {cause : ErrorCause} (h : m.Breaks cause) :
    cause.tier = .dataModel := by
  cases cause <;> first | rfl | exact absurd h id

end MessageFormat
