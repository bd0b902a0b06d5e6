import MessageFormat.Proofs.Resolving
import MessageFormat.Proofs.Selection

/-!
# What a message takes from its input

Formatting a message looks up the variables that its expressions read and that the options of its
markup name, and no others.  A variable that the message makes itself is looked up only when it is
made already, so that the value of the caller under the same name is never seen.

* `Message.reads`, `Message.assignedNames` : the variables that a message reads, and those that it
  makes;
* `Environment.foldlM_declare_withInput` : the run over the declarations;
* `only_reads_matter` : inputs that agree on what is read and not made are formatted alike.
-/

namespace MessageFormat

/-! ### What is read -/

/-- The variables that resolving the declaration reads; a reserved statement is not resolved. -/
def Declaration.reads : Declaration → List String
  | input e | assign _ e => e.reads
  | reserved _ => []

theorem Declaration.exists_of_mem_reads {d : Declaration} {name : String} (h : name ∈ d.reads) :
    ∃ e ∈ d.expressions, name ∈ e.reads := by
  cases d with
  | input e => exact ⟨e, List.mem_singleton_self e, h⟩
  | assign _ e => exact ⟨e, List.mem_singleton_self e, h⟩
  | reserved statement => cases h

theorem Declaration.eq_assign {d : Declaration} {name : String} (h : d.assignedName? = some name) :
    ∃ e, d = .assign name e := by
  cases d with
  | input e => cases h
  | assign _ e =>
    cases h
    exact ⟨e, rfl⟩
  | reserved statement => cases h

/-- A new variable is not made from its own value. -/
theorem Declaration.IsSound.notMem_reads {d : Declaration} (h : d.IsSound) {name : String}
    (hname : d.assignedName? = some name) : name ∉ d.reads := by
  obtain ⟨e, rfl⟩ := Declaration.eq_assign hname
  exact h.unread name e rfl

/-- A declaration does not read what a later one makes. -/
theorem Declaration.Spares.notMem_reads {earlier later : Declaration} (h : earlier.Spares later)
    {name : String} (hname : later.assignedName? = some name) : name ∉ earlier.reads := by
  obtain ⟨_, rfl⟩ := Declaration.eq_assign hname
  intro hread
  obtain ⟨e, he, hread⟩ := Declaration.exists_of_mem_reads hread
  exact (h name rfl).2 e he hread

/-- The variables that formatting the markup reads, for the values of its options. -/
def Markup.reads (m : Markup) : List String := m.options.filterMap (·.value.variableName?)

/-- The variables that formatting the part reads. -/
def PatternPart.reads : PatternPart → List String
  | text _ => []
  | expression e => e.reads
  | markup m => m.reads

namespace Message

/-- The variables that formatting the message may read: in declarations, selectors and patterns. -/
def reads (m : Message) : List String :=
  m.declarations.flatMap Declaration.reads ++
    (m.matcher?.elim [] fun matcher => matcher.selectors.flatMap Expression.reads) ++
    m.patterns.flatMap (·.flatMap PatternPart.reads)

/-- The variables that the message makes itself. -/
def assignedNames (m : Message) : List String := m.declarations.filterMap Declaration.assignedName?

theorem forall_reads {m : Message} {P : String → Prop} :
    (∀ name ∈ m.reads, P name) ↔ (∀ d ∈ m.declarations, ∀ name ∈ d.reads, P name) ∧
      (∀ matcher ∈ m.matcher?, ∀ e ∈ matcher.selectors, ∀ name ∈ e.reads, P name) ∧
        ∀ pattern ∈ m.patterns, ∀ part ∈ pattern, ∀ name ∈ part.reads, P name := by
  simp only [reads, List.forall_mem_append, List.forall_mem_flatMap, and_assoc]
  cases m.matcher? with
  | none => simp
  | some matcher =>
    simp only [Option.elim_some, List.forall_mem_flatMap, Option.mem_def, Option.some.injEq,
      forall_eq']

end Message

namespace Environment

/-- The environment with another input. -/
def withInput (env : Environment) (input : NameMap Value) : Environment :=
  { env with input := input }

variable {env : Environment} {input : NameMap Value} {scope : Scope}

/-- The other input makes no difference to the variable: it is bound in the scope, or both inputs
agree on it. -/
def Settles (env : Environment) (input : NameMap Value) (scope : Scope) (name : String) : Prop :=
  scope.contains name = true ∨ input.find? name = env.input.find? name

theorem Settles.known?_eq {name : String} (h : env.Settles input scope name) :
    (env.withInput input).known? scope name = env.known? scope name := by
  rcases h with hscope | hinput
  · obtain ⟨binding, hbinding⟩ := Option.isSome_iff_exists.1 hscope
    rw [known?_of_find? hbinding, known?_of_find? hbinding]
  · rw [known?, known?, withInput, hinput]

theorem resolve_withInput {e : Expression} (h : ∀ name ∈ e.reads, env.Settles input scope name) :
    (env.withInput input).resolve scope e = env.resolve scope e :=
  resolve_congr (fun name hname => (h name hname).known?_eq) fun _ _ => rfl

theorem evaluate_withInput {e : Expression} (h : ∀ name ∈ e.reads, env.Settles input scope name) :
    (env.withInput input).evaluate scope e = env.evaluate scope e := by
  rw [evaluate, evaluate, resolve_withInput h]
  rfl

/-! ### Declarations -/

theorem declare_withInput {d : Declaration} (h : ∀ name ∈ d.reads, env.Settles input scope name) :
    (env.withInput input).declare scope d = env.declare scope d := by
  have hbinding : ∀ name e, (∀ name ∈ e.reads, env.Settles input scope name) →
      (env.withInput input).bindingOf scope name e = env.bindingOf scope name e := by
    intro name e he
    rw [bindingOf_eq, bindingOf_eq, evaluate_withInput he]
  cases d with
  | input e => simp only [declare, hbinding _ e h]
  | assign name e => simp only [declare, hbinding name e h]
  | reserved statement => rfl

theorem Settles.declare {name : String} (h : env.Settles input scope name) (d : Declaration) :
    env.Settles input (env.declare scope d).output name :=
  h.imp_left fun hscope => contains_declare (.inl hscope)

/-- The run over the declarations: as long as every variable is settled or yet to be made by the
message, the other input makes no difference, and in the end they are all settled. -/
theorem foldlM_declare_withInput {names : List String} {declarations : List Declaration}
    (hsound : ∀ d ∈ declarations, d.IsSound) (hspares : declarations.Pairwise Declaration.Spares)
    (hreads : ∀ d ∈ declarations, ∀ name ∈ d.reads, name ∈ names)
    (h : ∀ name ∈ names, env.Settles input scope name ∨
      ∃ d ∈ declarations, d.assignedName? = some name) :
    declarations.foldlM (env.withInput input).declare scope =
        declarations.foldlM env.declare scope ∧
      ∀ name ∈ names, env.Settles input (declarations.foldlM env.declare scope).output name := by
  induction declarations generalizing scope with
  | nil =>
    refine ⟨?_, fun name hname => (h name hname).resolve_right (by simp)⟩
    rw [List.foldlM_nil, List.foldlM_nil]
  | cons d rest ih =>
    obtain ⟨hsoundd, hsoundrest⟩ := List.forall_mem_cons.1 hsound
    obtain ⟨hsparesd, hsparesrest⟩ := List.pairwise_cons.1 hspares
    obtain ⟨hreadsd, hreadsrest⟩ := List.forall_mem_cons.1 hreads
    -- what `d` reads is made neither by `d` nor by a declaration behind it
    have hd : ∀ name ∈ d.reads, env.Settles input scope name := by
      intro name hname
      rcases h name (hreadsd name hname) with hsettled | ⟨other, hother, hassigned⟩
      · exact hsettled
      · rcases List.mem_cons.1 hother with rfl | hother
        · exact absurd hname (hsoundd.notMem_reads hassigned)
        · exact absurd hname ((hsparesd other hother).notMem_reads hassigned)
    rw [List.foldlM_cons, List.foldlM_cons, declare_withInput hd]
    have hrest : ∀ name ∈ names, env.Settles input (env.declare scope d).output name ∨
        ∃ d ∈ rest, d.assignedName? = some name := by
      intro name hname
      rcases h name hname with hsettled | ⟨other, hother, hassigned⟩
      · exact .inl (hsettled.declare d)
      · rcases List.mem_cons.1 hother with rfl | hother
        · exact .inl (.inl (contains_declare (.inr (by
          obtain ⟨e, rfl⟩ := Declaration.eq_assign hassigned
          rfl))))
        · exact .inr ⟨other, hother, hassigned⟩
    obtain ⟨heq, hsettled⟩ := ih hsoundrest hsparesrest hreadsrest hrest
    exact ⟨Resolution.bind_congr_output heq, hsettled⟩

/-! ### Patterns and selectors -/

theorem formatPart_withInput {part : PatternPart}
    (h : ∀ name ∈ part.reads, env.Settles input scope name) :
    (env.withInput input).formatPart scope part = env.formatPart scope part := by
  cases part with
  | text text => rfl
  | expression e =>
    rw [formatPart, formatPart, formatExpression_eq, formatExpression_eq, evaluate_withInput h]
  | markup m =>
    rw [formatPart, formatPart, resolveOptions_congr fun name hname => (h name hname).known?_eq]

theorem formatPattern_withInput {pattern : Pattern}
    (h : ∀ part ∈ pattern, ∀ name ∈ part.reads, env.Settles input scope name) :
    (env.withInput input).formatPattern scope pattern = env.formatPattern scope pattern :=
  Resolution.mapM_congr fun part hpart => formatPart_withInput (h part hpart)

theorem matchSelectors_withInput {m : Matcher}
    (h : ∀ e ∈ m.selectors, ∀ name ∈ e.reads, env.Settles input scope name) :
    (env.withInput input).matchSelectors scope m = env.matchSelectors scope m := by
  refine Resolution.mapM_congr fun ⟨selector, column⟩ hselector => ?_
  have hresolve := resolve_withInput (h selector (List.fst_mem_of_mem_zipIdx hselector))
  dsimp only
  rw [matchKeys, matchKeys, hresolve]
  rfl

theorem choosePattern_withInput {m : Message}
    (h : ∀ matcher ∈ m.matcher?, ∀ e ∈ matcher.selectors, ∀ name ∈ e.reads,
      env.Settles input scope name) :
    (env.withInput input).choosePattern scope m = env.choosePattern scope m := by
  cases m with
  | simple pattern => rfl
  | complex declarations body =>
    cases body with
    | pattern pattern => rfl
    | matcher matcher =>
      rw [choosePattern, choosePattern, choose, choose, matchSelectors_withInput (h matcher rfl)]

/-! ### Messages -/

/-- Both environments give the message the same parts and the same text, with the same errors, and
make the same choice among its variants. -/
structure FormatsAlike (env env' : Environment) (m : Message) : Prop where
  /-- The parts of the output, and the errors. -/
  parts : env.formatToParts m = env'.formatToParts m
  /-- The text of the output. -/
  text : env.format m = env'.format m
  /-- The position of the variant that is chosen. -/
  choice : env.chosen? m = env'.chosen? m

/-- Behind its declarations, everything that a valid message reads is settled. -/
theorem declareAll_withInput {m : Message} (hvalid : m.validate = .ok ())
    (h : ∀ name ∈ m.reads, name ∉ m.assignedNames → input.find? name = env.input.find? name) :
    (env.withInput input).declareAll m.declarations = env.declareAll m.declarations ∧
      ∀ name ∈ m.reads, env.Settles input (env.scopeOf m) name := by
  obtain ⟨⟨hsound, hspares⟩, -, -⟩ := Message.validate_eq_ok_iff.1 hvalid
  refine foldlM_declare_withInput hsound hspares (Message.forall_reads.1 fun _ => id).1 ?_
  intro name hname
  by_cases hassigned : name ∈ m.assignedNames
  · exact .inr (List.mem_filterMap.1 hassigned)
  · exact .inl (.inr (h name hname hassigned))

theorem formatsAlike_withInput {m : Message} (hvalid : m.validate = .ok ())
    (h : ∀ name ∈ m.reads, name ∉ m.assignedNames → input.find? name = env.input.find? name) :
    FormatsAlike (env.withInput input) env m := by
  obtain ⟨hdeclare, hsettled⟩ := declareAll_withInput hvalid h
  obtain ⟨-, hselectors, hpatterns⟩ := Message.forall_reads.1 hsettled
  have hpattern := env.patternOf_mem_patterns (Message.forall_matcher_valid hvalid)
  have hparts : (env.withInput input).formatToParts m = env.formatToParts m := by
    rw [formatToParts_eq, formatToParts_eq, hdeclare]
    have hchoose : (env.withInput input).choosePattern (env.declareAll m.declarations).output m =
        env.choosePattern (env.declareAll m.declarations).output m :=
      choosePattern_withInput hselectors
    refine Resolution.bind_congr_output ?_
    rw [hchoose]
    exact Resolution.bind_congr_output (formatPattern_withInput (hpatterns _ hpattern))
  refine ⟨hparts, congrArg (env.settings.join <$> ·) hparts, ?_⟩
  have hscope : (env.withInput input).scopeOf m = env.scopeOf m := congrArg Resolution.output hdeclare
  cases hm : m.matcher? with
  | none => rw [chosen?, chosen?, hm, Option.bind_none, Option.bind_none]
  | some matcher =>
    rw [chosen?, chosen?, hscope, hm, Option.bind_some, Option.bind_some,
      matchSelectors_withInput (hselectors matcher hm)]

end Environment

/-- **Only what a message reads from its input matters.**  Inputs that agree on the variables which
the message reads and does not make itself are formatted alike.  So nothing is changed by adding,
changing or removing a value under a name that is not read, or under the name of a variable that the
message makes itself. -/
theorem only_reads_matter (env : Environment) {m : Message} (hvalid : m.validate = .ok ()) :
    (∀ input : NameMap Value,
      (∀ name ∈ m.reads, name ∉ m.assignedNames → input.find? name = env.input.find? name) →
        (env.withInput input).FormatsAlike env m) ∧
    ∀ name, name ∈ m.assignedNames ∨ name ∉ m.reads →
      (∀ value, (env.withInput (env.input.insert name value)).FormatsAlike env m) ∧
        (env.withInput (env.input.erase name)).FormatsAlike env m := by
  refine ⟨fun input h => Environment.formatsAlike_withInput hvalid h, fun name hname => ?_⟩
  have hne : ∀ other ∈ m.reads, other ∉ m.assignedNames → other ≠ name := by
    rintro other hread hassigned rfl
    exact hname.elim hassigned (· hread)
  refine ⟨fun value => ?_, ?_⟩
  · refine Environment.formatsAlike_withInput hvalid fun other hread hassigned => ?_
    exact NameMap.find?_insert_of_ne _ _ (hne other hread hassigned)
  · refine Environment.formatsAlike_withInput hvalid fun other hread hassigned => ?_
    exact NameMap.find?_erase_of_ne _ (hne other hread hassigned)

theorem only_reads_matter_greeting :
    greeting.validate = .ok () ∧ "name" ∈ greeting.assignedNames ∧
      ∀ value, (greetingEnvironment.withInput
        (greetingEnvironment.input.insert "name" value)).FormatsAlike greetingEnvironment
          greeting := by
  have hassigned : "name" ∈ greeting.assignedNames := List.mem_singleton_self _
  obtain ⟨-, hother⟩ := only_reads_matter greetingEnvironment (m := greeting) rfl
  exact ⟨rfl, hassigned, fun value => (hother "name" (.inl hassigned)).1 value⟩

end MessageFormat
