import MessageFormat.Proofs.Dependence

/-!
# Failures are isolated

What a part of a pattern becomes depends on the variables that it reads, on those that the
declarations of these variables read, and so on; and on the functions that the part and these
declarations call.  Whatever else a message declares, calls or shows may succeed or fail: the part
stays the same.

The invariant behind this relates two runs over the declarations: they bind the variables that the
part depends on alike, and call nothing for them but functions that the part depends on.

* `Message.DependsOn`, `Message.CallsFor` : the variables and functions that a part depends on;
* `Environment.bindAlike_foldlM_declare` : the run over the declarations;
* `failures_isolated` : environments that agree on these format the part alike.
-/

namespace MessageFormat

namespace Message

/-- The pattern of the message, if it does not choose among several. -/
def pattern? : Message → Option Pattern
  | simple pattern | complex _ (.pattern pattern) => some pattern
  | complex _ (.matcher _) => none

/-! ### Dependencies -/

/-- The variables that a part of the message depends on. -/
inductive DependsOn (m : Message) (part : PatternPart) : String → Prop where
  /-- The part reads the variable. -/
  | read {name : String} (h : name ∈ part.reads) : DependsOn m part name
  /-- A declaration reads the variable, and binds one that the part depends on. -/
  | declared {name other : String} {d : Declaration} {e : Expression} (h : DependsOn m part name)
      (hd : d ∈ m.declarations) (hbinding : d.binding? = some (name, e)) (hread : other ∈ e.reads) :
      DependsOn m part other

/-- The functions that a part of the message depends on, by their names. -/
inductive CallsFor (m : Message) (part : PatternPart) : String → Prop where
  /-- The part calls the function. -/
  | part {e : Expression} {call : FunctionCall} (h : part.expression? = some e)
      (hcall : e.call? = some call) : CallsFor m part call.identifier.text
  /-- A declaration calls the function, and binds a variable that the part depends on. -/
  | declared {name : String} {d : Declaration} {e : Expression} {call : FunctionCall}
      (h : m.DependsOn part name) (hd : d ∈ m.declarations)
      (hbinding : d.binding? = some (name, e)) (hcall : e.call? = some call) :
      CallsFor m part call.identifier.text

/-- A part depends on no variables but those of any set that is closed under what declarations
read. -/
theorem DependsOn.mem {m : Message} {part : PatternPart} {names : List String}
    (hpart : ∀ name ∈ part.reads, name ∈ names)
    (hclosed : ∀ d ∈ m.declarations, ∀ name e, d.binding? = some (name, e) → name ∈ names →
      ∀ other ∈ e.reads, other ∈ names)
    {name : String} (h : m.DependsOn part name) : name ∈ names := by
  induction h with
  | read h => exact hpart _ h
  | declared _ hd hbinding hread ih => exact hclosed _ hd _ _ hbinding ih _ hread

end Message

/-! ### Where calls come from -/

namespace Environment

variable {env env' : Environment} {scope scope' : Scope} {e : Expression} {m : Message}
  {part : PatternPart}

/-- A value that an operand resolves to is that of a variable, or has no call. -/
theorem output_resolveOperand {o : Operand} {node : String} {resolved : Resolved}
    (h : (env.resolveOperand scope node o).output = .ok resolved) :
    resolved.call = none ∨ ∃ name, o = .variableName name ∧
      scope.find? name = some (.value resolved) := by
  cases o with
  | literal l =>
    cases h
    exact .inl rfl
  | variableName name =>
    rw [resolveOperand, lookUp] at h
    split at h
    · rename_i bound hbound
      cases h
      exact .inr ⟨name, rfl, hbound⟩
    · cases h
    · split at h
      · cases h
        exact .inl rfl
      · cases h

/-- The call of what an expression resolves to is its own, or that of the variable which is its
operand. -/
theorem call_resolve {resolved : Resolved} {call : Call}
    (h : (env.resolve scope e).output = .ok resolved) (hcall : resolved.call = some call) :
    (∃ own, e.call? = some own ∧ call.name = own.identifier.text) ∨
      ∃ name bound, e.variableName? = some name ∧ scope.find? name = some (.value bound) ∧
        bound.call = some call := by
  obtain ⟨operand, hdirective, hoperand⟩ := exists_applyDirective_of_resolve h
  cases hown : e.call? with
  | none =>
    obtain ⟨o, ho, hbound⟩ := hoperand _ (output_applyDirective_of_call_eq_none hown hdirective)
    obtain hnone | ⟨name, rfl, hfind⟩ := output_resolveOperand hbound
    · rw [hnone] at hcall
      cases hcall
    · exact .inr ⟨name, resolved, by rw [Expression.variableName?, ho]; rfl, hfind, hcall⟩
  | some own =>
    rw [output_applyDirective_of_call hown] at hdirective
    split at hdirective
    · cases hdirective
      obtain ⟨made, hmade, hname⟩ := Resolved.exists_call_withCall own.identifier.text _ operand
      obtain rfl := Option.some.inj (hmade.symm.trans hcall)
      exact .inl ⟨own, rfl, hname⟩
    · cases hdirective

theorem output_resolve_of_evaluate {result : Resolved × String}
    (h : (env.evaluate scope e).output = .ok result) :
    (env.resolve scope e).output = .ok result.1 := by
  rw [evaluate, Resolution.output_bind] at h
  split at h
  · cases h
  · rename_i resolved hresolve
    split at h
    · cases h
      exact hresolve
    · cases h

/-! ### Two environments -/

/-- The environments agree on all that a part of the message depends on. -/
structure AgreesFor (env env' : Environment) (m : Message) (part : PatternPart) : Prop where
  /-- They format in the same way. -/
  settings : env.settings = env'.settings
  /-- They bind the variables that the part depends on to the same values. -/
  input : ∀ name, m.DependsOn part name → env.input.find? name = env'.input.find? name
  /-- They have the same functions under the names that the part depends on. -/
  registry : ∀ name, m.CallsFor part name → env.registry.find? name = env'.registry.find? name

/-- The scopes bind the variables that a part of the message depends on alike, and call no functions
for them but those that the part depends on. -/
structure BindAlike (scope scope' : Scope) (m : Message) (part : PatternPart) : Prop where
  /-- What the variables are bound to is the same. -/
  same : ∀ name, m.DependsOn part name → scope.find? name = scope'.find? name
  /-- What they are bound to is called with a function that the part depends on. -/
  called : ∀ name resolved call, m.DependsOn part name →
    scope.find? name = some (.value resolved) → resolved.call = some call → m.CallsFor part call.name

theorem formatResolved_congr {resolved : Resolved} (hsettings : env.settings = env'.settings)
    (hcall : ∀ call ∈ resolved.call, env.registry.find? call.name = env'.registry.find? call.name) :
    env.formatResolved resolved = env'.formatResolved resolved := by
  unfold formatResolved
  cases hresolved : resolved.call with
  | none => rfl
  | some call =>
    dsimp only
    rw [hcall call hresolved, hsettings]

variable (hagrees : AgreesFor env env' m part) (halike : BindAlike scope scope' m part)
include hagrees halike

/-- An expression resolves to the same in both environments, if the part depends on what it reads
and on what it calls. -/
theorem AgreesFor.resolve_eq (hreads : ∀ name ∈ e.reads, m.DependsOn part name)
    (hcalls : ∀ call ∈ e.call?, m.CallsFor part call.identifier.text) :
    env.resolve scope e = env'.resolve scope' e := by
  refine resolve_congr (fun name hname => ?_) fun call hcall => ?_
  · rw [known?, known?, halike.same name (hreads name hname),
      hagrees.input name (hreads name hname)]
  · rw [NameMap.contains, NameMap.contains, hagrees.registry _ (hcalls call hcall)]

omit hagrees in
/-- What it resolves to is called with a function that the part depends on. -/
theorem BindAlike.callsFor_resolve (hreads : ∀ name ∈ e.reads, m.DependsOn part name)
    (hcalls : ∀ call ∈ e.call?, m.CallsFor part call.identifier.text) {resolved : Resolved}
    {call : Call} (h : (env.resolve scope e).output = .ok resolved)
    (hcall : resolved.call = some call) : m.CallsFor part call.name := by
  obtain ⟨own, he, hname⟩ | ⟨name, bound, hvariable, hbound, hcall⟩ := call_resolve h hcall
  · rw [hname]
    exact hcalls own he
  · refine halike.called name bound call (hreads name ?_) hbound hcall
    exact List.mem_append_left _ (Option.mem_toList.2 hvariable)

theorem AgreesFor.evaluate_eq (hreads : ∀ name ∈ e.reads, m.DependsOn part name)
    (hcalls : ∀ call ∈ e.call?, m.CallsFor part call.identifier.text) :
    env.evaluate scope e = env'.evaluate scope' e := by
  rw [evaluate, evaluate, ← hagrees.resolve_eq halike hreads hcalls]
  refine Resolution.bind_congr_output ?_
  cases hresolve : (env.resolve scope e).output with
  | error text => rfl
  | ok resolved =>
    dsimp only
    rw [formatResolved_congr hagrees.settings fun call hcall => hagrees.registry _
      (halike.callsFor_resolve hreads hcalls hresolve hcall)]

/-! ### The run over the declarations -/

omit hagrees in
theorem BindAlike.insert (name : String) {binding : Binding}
    (hcalled : ∀ resolved call, binding = .value resolved → resolved.call = some call →
      m.CallsFor part call.name) :
    BindAlike (scope.insert name binding) (scope'.insert name binding) m part := by
  refine ⟨fun other hother => ?_, fun other resolved call hother hfind hcall => ?_⟩
  · rw [NameMap.find?_insert, NameMap.find?_insert, halike.same other hother]
  · rw [NameMap.find?_insert] at hfind
    split at hfind
    · exact hcalled resolved call (Option.some.inj hfind) hcall
    · exact halike.called other resolved call hother hfind hcall

omit hagrees in
/-- What the part does not depend on may be bound to anything. -/
theorem BindAlike.insert_of_not_dependsOn {name : String} (h : ¬ m.DependsOn part name)
    (binding binding' : Binding) :
    BindAlike (scope.insert name binding) (scope'.insert name binding') m part := by
  have hne : ∀ other, m.DependsOn part other → other ≠ name := by
    rintro _ hother rfl
    exact h hother
  refine ⟨fun other hother => ?_, fun other resolved call hother hfind hcall => ?_⟩
  · rw [NameMap.find?_insert_of_ne _ _ (hne other hother),
      NameMap.find?_insert_of_ne _ _ (hne other hother), halike.same other hother]
  · rw [NameMap.find?_insert_of_ne _ _ (hne other hother)] at hfind
    exact halike.called other resolved call hother hfind hcall

/-- A step of the run: a declaration that the part depends on binds its variable alike, and any
other leaves the variables alone that the part depends on. -/
theorem bindAlike_declare {d : Declaration} (hd : d ∈ m.declarations) :
    BindAlike (env.declare scope d).output (env'.declare scope' d).output m part := by
  cases hbinding : d.binding? with
  | none => rwa [output_declare_of_binding? hbinding, output_declare_of_binding? hbinding]
  | some binding =>
    obtain ⟨name, e⟩ := binding
    rw [declare_of_binding? hbinding, declare_of_binding? hbinding, Resolution.output_map,
      Resolution.output_map]
    by_cases hname : m.DependsOn part name
    · have hreads : ∀ other ∈ e.reads, m.DependsOn part other := fun other hother =>
        .declared hname hd hbinding hother
      have hcalls : ∀ call ∈ e.call?, m.CallsFor part call.identifier.text := fun call hcall =>
        .declared hname hd hbinding hcall
      rw [bindingOf_eq, bindingOf_eq, ← hagrees.evaluate_eq halike hreads hcalls,
        Resolution.output_map]
      refine halike.insert name fun resolved call hvalue hcall => ?_
      split at hvalue
      · rename_i result hresult
        cases hvalue
        exact halike.callsFor_resolve hreads hcalls (output_resolve_of_evaluate hresult) hcall
      · cases hvalue
    · exact halike.insert_of_not_dependsOn hname _ _

/-- The run over the declarations binds the variables alike that the part depends on. -/
theorem bindAlike_foldlM_declare {declarations : List Declaration}
    (hd : ∀ d ∈ declarations, d ∈ m.declarations) :
    BindAlike (declarations.foldlM env.declare scope).output
      (declarations.foldlM env'.declare scope').output m part := by
  induction declarations generalizing scope scope' with
  | nil => exact halike
  | cons d rest ih =>
    rw [List.forall_mem_cons] at hd
    rw [List.foldlM_cons, List.foldlM_cons, Resolution.output_bind, Resolution.output_bind]
    exact ih (bindAlike_declare hagrees halike hd.1) hd.2

/-- The part is formatted alike, with the same errors. -/
theorem AgreesFor.formatPart_eq : env.formatPart scope part = env'.formatPart scope' part := by
  cases part with
  | text text => rfl
  | expression e =>
    rw [formatPart, formatPart, formatExpression_eq, formatExpression_eq,
      hagrees.evaluate_eq halike (fun name hname => .read hname) fun call hcall => .part rfl hcall]
  | markup k =>
    rw [formatPart, formatPart, resolveOptions_congr fun name hname => ?_]
    have hdepends : m.DependsOn (.markup k) name := .read hname
    rw [known?, known?, halike.same name hdepends, hagrees.input name hdepends]

end Environment

/-- A message without a matcher is formatted part by part, behind its declarations. -/
theorem Message.output_formatToParts_getElem? (env : Environment) {m : Message} {pattern : Pattern}
    (h : m.pattern? = some pattern) (i : Nat) : (env.formatToParts m).output[i]? =
      pattern[i]?.map fun part => (env.formatPart (env.scopeOf m) part).output := by
  have hpattern : env.patternOf m = pattern := by
    cases m with
    | simple _ => exact Option.some.inj h
    | complex _ body =>
      cases body with
      | pattern _ => exact Option.some.inj h
      | matcher _ => cases h
  rw [env.output_formatToParts, hpattern, Environment.formatPattern, Resolution.output_mapM,
    List.getElem?_map]

/-- **Failures are isolated.**  In a message without a matcher, a part is formatted alike in two
environments that agree on the variables and functions which it depends on, whatever the other parts,
declarations and functions do or fail to do in either of them. -/
theorem failures_isolated {env env' : Environment} {m : Message} {pattern : Pattern}
    {part : PatternPart} {i : Nat} (hpattern : m.pattern? = some pattern)
    (hpart : pattern[i]? = some part) (hagrees : env.AgreesFor env' m part) :
    ∃ formatted, (env.formatToParts m).output[i]? = some formatted ∧
      (env'.formatToParts m).output[i]? = some formatted := by
  have hempty : Environment.BindAlike .empty .empty m part :=
    ⟨fun _ _ => rfl, fun _ _ _ _ hfind => absurd hfind nofun⟩
  have halike : Environment.BindAlike (env.scopeOf m) (env'.scopeOf m) m part :=
    Environment.bindAlike_foldlM_declare hagrees hempty fun _ => id
  refine ⟨(env.formatPart (env.scopeOf m) part).output, ?_, ?_⟩
  · rw [Message.output_formatToParts_getElem? env hpattern, hpart, Option.map_some]
  · rw [Message.output_formatToParts_getElem? env' hpattern, hpart, Option.map_some,
      hagrees.formatPart_eq halike]

/-- A message with a declaration that calls a function which need not be there. -/
def pairing : Message :=
  .complex
    [.assign "name" greetedName,
      .assign "other" ⟨some (.variableName "missing"), some (.function ⟨⟨none, "shout"⟩, []⟩), []⟩]
    (.pattern [.expression nameReference, .text " and ",
      .expression { operand := some (.variableName "other") }])

/-- An environment in which that function is there, and so is the value that it is called with. -/
def pairingEnvironment : Environment where
  registry := greetingEnvironment.registry.insert "shout" textFunction
  input := greetingEnvironment.input.insert "missing" (.string "anna")

theorem failures_isolated_pairing :
    (greetingEnvironment.formatToParts pairing).errors ≠ [] ∧
      (pairingEnvironment.formatToParts pairing).errors = [] ∧
      ∃ formatted, (greetingEnvironment.formatToParts pairing).output[0]? = some formatted ∧
        (pairingEnvironment.formatToParts pairing).output[0]? = some formatted := by
  have hdepends : ∀ name, pairing.DependsOn (.expression nameReference) name →
      name ∈ ["name", "user", "style"] := fun name h =>
    h.mem (by decide) (by
      intro d hd name e hbinding hname
      rcases List.mem_cons.1 hd with rfl | hd
      · cases hbinding
        decide
      · obtain rfl := List.mem_singleton.1 hd
        cases hbinding
        exact absurd hname (by decide))
  have hcalls : ∀ name, pairing.CallsFor (.expression nameReference) name → name ≠ "shout" := by
    intro name h
    cases h with
    | part h hcall =>
      cases h
      cases hcall
    | declared h hd hbinding hcall =>
      rcases List.mem_cons.1 hd with rfl | hd
      · cases hbinding
        cases hcall
        decide
      · obtain rfl := List.mem_singleton.1 hd
        cases hbinding
        exact absurd (hdepends _ h) (by decide)
  have hagrees : greetingEnvironment.AgreesFor pairingEnvironment pairing
      (.expression nameReference) := by
    refine ⟨rfl, fun name hname => (NameMap.find?_insert_of_ne _ _ ?_).symm,
      fun name hname => (NameMap.find?_insert_of_ne _ _ (hcalls name hname)).symm⟩
    rintro rfl
    exact absurd (hdepends _ hname) (by decide)
  exact ⟨by decide, by decide, failures_isolated rfl rfl hagrees⟩

end MessageFormat
