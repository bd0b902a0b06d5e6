import MessageFormat.Message.Validity
import MessageFormat.Resolution.Formatting

/-!
# Resolving expressions and declarations

An expression is resolved in two steps: its operand is looked up, and its directive is applied to
what the operand resolves to.  All that this takes from the scope and from the input is what is known
of the variables that the expression reads.

* `Environment.known?` : what is known of a variable, from its declaration or from the input;
* `Environment.resolve_of_operand_eq_some` : the two steps;
* `Environment.resolve_eq_pure_of_known` : where all variables are known, nothing is reported;
* `Environment.resolve_congr` : what is known of the variables of an expression tells all about it;
* `Environment.evaluate` : what declarations and placeholders have in common;
* `Environment.declare_of_binding?` : what a declaration does.
-/

namespace MessageFormat

namespace Resolution

variable {α β : Type}

/-- What reports no error is no more than its output. -/
theorem eq_pure_of_errors {x : Resolution α} (h : x.errors = []) : x = pure x.output := by
  ext1
  · rfl
  · exact h

theorem errors_bind_eq_nil_iff {x : Resolution α} {f : α → Resolution β} :
    (x >>= f).errors = [] ↔ x.errors = [] ∧ (f x.output).errors = [] :=
  List.append_eq_nil_iff

theorem bind_congr_output {x : Resolution α} {f g : α → Resolution β}
    (h : f x.output = g x.output) : x >>= f = x >>= g := by
  ext1
  · rw [output_bind, output_bind, h]
  · rw [errors_bind, errors_bind, h]

theorem mapM_congr {f g : α → Resolution β} {items : List α} (h : ∀ a ∈ items, f a = g a) :
    items.mapM f = items.mapM g := by
  ext1
  · rw [output_mapM, output_mapM]
    exact List.map_congr_left fun a ha => by rw [h a ha]
  · rw [errors_mapM, errors_mapM]
    exact congrArg List.flatten (List.map_congr_left fun a ha => by rw [h a ha])

end Resolution

theorem Resolved.exists_call_withCall (name : String) (options : Options)
    (operand : Option Resolved) :
    ∃ call, (Resolved.withCall name options operand).call = some call ∧ call.name = name := by
  cases operand with
  | none => exact ⟨_, rfl, rfl⟩
  | some operand => exact ⟨_, rfl, rfl⟩

namespace Environment

variable {env env' : Environment} {scope scope' : Scope}

/-! ### Variables -/

/-- What is known of a variable: what its declaration has bound it to, or else what the caller has
bound it to. -/
def known? (env : Environment) (scope : Scope) (name : String) : Option Binding :=
  (scope.find? name).or ((env.input.find? name).map fun value => .value (.ofValue value))

theorem known?_of_find? {name : String} {binding : Binding} (h : scope.find? name = some binding) :
    env.known? scope name = some binding := by
  rw [known?, h, Option.some_or]

theorem lookUp_eq (name node : String) : env.lookUp scope name node =
    match env.known? scope name with
    | some (.value resolved) => pure (.ok resolved)
    | some (.fallback text) => pure (.error text)
    | none => do
      .report ((Error.ofCause (.unresolvedVariable name)).atNode node)
      return .error (variableFallback name) := by
  unfold lookUp known?
  cases scope.find? name with
  | some binding => cases binding <;> rfl
  | none => cases env.input.find? name <;> rfl

theorem lookUp_congr {name : String} (h : env.known? scope name = env'.known? scope' name)
    (node : String) : env.lookUp scope name node = env'.lookUp scope' name node := by
  rw [lookUp_eq, lookUp_eq, h]

theorem resolveOperand_congr {o : Operand}
    (h : ∀ name ∈ o.variableName?, env.known? scope name = env'.known? scope' name)
    (node : String) : env.resolveOperand scope node o = env'.resolveOperand scope' node o := by
  cases o with
  | literal l => rfl
  | variableName name => exact lookUp_congr (h name rfl) node

/-- Nothing is reported about an operand that is no variable, or one that is known. -/
theorem errors_resolveOperand_of_known {o : Operand}
    (h : ∀ name ∈ o.variableName?, (env.known? scope name).isSome = true) (node : String) :
    (env.resolveOperand scope node o).errors = [] := by
  cases o with
  | literal l => rfl
  | variableName name =>
    obtain ⟨binding, hbinding⟩ := Option.isSome_iff_exists.1 (h name rfl)
    rw [resolveOperand, lookUp_eq, hbinding]
    cases binding <;> rfl

theorem errors_resolveOptions_eq_nil_iff {node : String} {options : List NamedOption} :
    (env.resolveOptions scope node options).errors = [] ↔
      ∀ o ∈ options, (env.resolveOperand scope node o.value).errors = [] := by
  rw [resolveOptions, Resolution.errors_bind_eq_nil_iff, Resolution.errors_mapM,
    List.flatMap_eq_nil_iff]
  refine ⟨fun h o ho => (Resolution.errors_bind_eq_nil_iff.1 (h.1 o ho)).1, fun h => ⟨?_, rfl⟩⟩
  refine fun o ho => Resolution.errors_bind_eq_nil_iff.2 ⟨h o ho, ?_⟩
  split <;> rfl

theorem resolveOptions_congr {options : List NamedOption}
    (h : ∀ name ∈ options.filterMap (·.value.variableName?),
      env.known? scope name = env'.known? scope' name) (node : String) :
    env.resolveOptions scope node options = env'.resolveOptions scope' node options := by
  have hoption : ∀ o ∈ options,
      env.resolveOption scope node o = env'.resolveOption scope' node o := by
    intro o ho
    rw [resolveOption, resolveOption,
      resolveOperand_congr fun name hname => h name (List.mem_filterMap.2 ⟨o, ho, hname⟩)]
  rw [resolveOptions, resolveOptions, Resolution.mapM_congr hoption]

/-! ### Expressions -/

/-- Applies the directive of an expression to what its operand resolves to. -/
def applyDirective (env : Environment) (scope : Scope) (e : Expression)
    (operand : Option Resolved) : Resolution (Except String Resolved) :=
  match e.directive with
  | none => return operand.elim (.error e.fallback) .ok
  | some (.function call) => do
    let options ← env.resolveOptions scope e.print call.options
    if env.registry.contains call.identifier.text then
      return .ok (Resolved.withCall call.identifier.text options operand)
    else
      .report ((Error.ofCause (.unknownFunction call.identifier.text)).atNode e.print)
      return .error e.fallback
  | some (.privateUse directive) | some (.reserved directive) => do
    .report ((Error.ofCause (.unsupportedExpression (.singleton directive.sigil))).atNode e.print)
    return .error e.fallback

theorem resolve_of_operand_eq_none {e : Expression} (h : e.operand = none) :
    env.resolve scope e = env.applyDirective scope e none := by
  unfold resolve applyDirective
  rw [h]
  cases e.directive with
  | none => rfl
  | some directive => cases directive <;> rfl

/-- The directive is applied to what the operand resolves to, if it does. -/
theorem resolve_of_operand_eq_some {e : Expression} {o : Operand} (h : e.operand = some o) :
    env.resolve scope e = env.resolveOperand scope e.print o >>= fun
      | .error text => pure (.error text)
      | .ok resolved => env.applyDirective scope e (some resolved) := by
  unfold resolve applyDirective
  rw [h, Option.mapM_some, bind_map_left]
  refine bind_congr fun resolved => ?_
  cases resolved with
  | error text => rfl
  | ok resolved =>
    cases e.directive with
    | none => rfl
    | some directive => cases directive <;> rfl

/-- Nothing is reported where a directive applies, if all variables that it reads are known. -/
theorem errors_applyDirective_of_known {e : Expression}
    (hreads : ∀ name ∈ e.reads, (env.known? scope name).isSome = true) {operand : Option Resolved}
    {resolved : Resolved} (h : (env.applyDirective scope e operand).output = .ok resolved) :
    (env.applyDirective scope e operand).errors = [] := by
  unfold applyDirective at h ⊢
  cases hdirective : e.directive with
  | none => rfl
  | some directive =>
    cases directive with
    | privateUse directive =>
      simp only [hdirective, Resolution.output_bind] at h
      cases h
    | reserved directive =>
      simp only [hdirective, Resolution.output_bind] at h
      cases h
    | function call =>
      simp only [hdirective, Resolution.output_bind] at h
      have hcall : e.call? = some call := by rw [Expression.call?, hdirective]
      refine Resolution.errors_bind_eq_nil_iff.2 ⟨errors_resolveOptions_eq_nil_iff.2 ?_, ?_⟩
      · intro o ho
        refine errors_resolveOperand_of_known (fun name hname => hreads name ?_) _
        refine List.mem_append_right _ ?_
        rw [hcall]
        exact List.mem_filterMap.2 ⟨o, ho, hname⟩
      · split at h
        · rename_i hcontains
          rw [if_pos hcontains]
          rfl
        · cases h

/-- An expression that resolves does nothing else, if all variables that it reads are known. -/
theorem resolve_eq_pure_of_known {e : Expression} {resolved : Resolved}
    (hreads : ∀ name ∈ e.reads, (env.known? scope name).isSome = true)
    (h : (env.resolve scope e).output = .ok resolved) :
    env.resolve scope e = pure (.ok resolved) := by
  rw [← h]
  refine Resolution.eq_pure_of_errors ?_
  cases ho : e.operand with
  | none =>
    rw [resolve_of_operand_eq_none ho] at h ⊢
    exact errors_applyDirective_of_known hreads h
  | some o =>
    rw [resolve_of_operand_eq_some ho] at h ⊢
    rw [Resolution.output_bind] at h
    refine Resolution.errors_bind_eq_nil_iff.2
      ⟨errors_resolveOperand_of_known (fun name hname => hreads name ?_) _, ?_⟩
    · refine List.mem_append_left _ ?_
      rwa [Expression.variableName?, ho, Option.bind_some, Option.mem_toList]
    · split at h
      · cases h
      · exact errors_applyDirective_of_known hreads h

/-- What is known of the variables that an expression reads, and whether its function is there,
tells what it resolves to. -/
theorem resolve_congr {e : Expression}
    (hreads : ∀ name ∈ e.reads, env.known? scope name = env'.known? scope' name)
    (hcall : ∀ call ∈ e.call?, env.registry.contains call.identifier.text =
      env'.registry.contains call.identifier.text) :
    env.resolve scope e = env'.resolve scope' e := by
  have hdirective : ∀ operand, env.applyDirective scope e operand =
      env'.applyDirective scope' e operand := by
    intro operand
    unfold applyDirective
    split
    · rfl
    · rename_i call hdirective
      have he : e.call? = some call := by rw [Expression.call?, hdirective]
      have hoptions : ∀ name ∈ call.options.filterMap (·.value.variableName?),
          env.known? scope name = env'.known? scope' name := by
        intro name hname
        refine hreads name (List.mem_append_right _ ?_)
        rwa [he]
      rw [resolveOptions_congr hoptions, hcall call he]
    · rfl
    · rfl
  cases ho : e.operand with
  | none => rw [resolve_of_operand_eq_none ho, resolve_of_operand_eq_none ho, hdirective]
  | some o =>
    have hoperand : ∀ name ∈ o.variableName?,
        env.known? scope name = env'.known? scope' name := by
      intro name hname
      refine hreads name (List.mem_append_left _ ?_)
      rwa [Expression.variableName?, ho, Option.bind_some, Option.mem_toList]
    rw [resolve_of_operand_eq_some ho, resolve_of_operand_eq_some ho,
      resolveOperand_congr hoperand]
    simp only [hdirective]

/-- Applied to what an operand resolves to, a call of a function there is gives that with the call. -/
theorem output_applyDirective_of_call {e : Expression} {call : FunctionCall}
    (hcall : e.call? = some call) (operand : Option Resolved) :
    (env.applyDirective scope e operand).output =
      if env.registry.contains call.identifier.text then .ok (Resolved.withCall call.identifier.text
        (env.resolveOptions scope e.print call.options).output operand)
      else .error e.fallback := by
  have hdirective : e.directive = some (.function call) := by
    unfold Expression.call? at hcall
    split at hcall
    · rename_i own hdirective
      cases hcall
      exact hdirective
    · cases hcall
  unfold applyDirective
  simp only [hdirective, Resolution.output_bind]
  split <;> rfl

/-- An expression without a call resolves to no more than its operand. -/
theorem output_applyDirective_of_call_eq_none {e : Expression} (hcall : e.call? = none)
    {operand : Option Resolved} {resolved : Resolved}
    (h : (env.applyDirective scope e operand).output = .ok resolved) : operand = some resolved := by
  unfold applyDirective at h
  split at h
  · cases operand with
    | none => cases h
    | some operand =>
      cases h
      rfl
  · rename_i call hdirective
    rw [Expression.call?, hdirective] at hcall
    cases hcall
  · cases h
  · cases h

/-- What an expression resolves to is its directive applied to what its operand resolves to. -/
theorem exists_applyDirective_of_resolve {e : Expression} {resolved : Resolved}
    (h : (env.resolve scope e).output = .ok resolved) : ∃ operand,
      (env.applyDirective scope e operand).output = .ok resolved ∧
        ∀ bound, operand = some bound → ∃ o, e.operand = some o ∧
          (env.resolveOperand scope e.print o).output = .ok bound := by
  cases ho : e.operand with
  | none =>
    rw [resolve_of_operand_eq_none ho] at h
    exact ⟨none, h, nofun⟩
  | some o =>
    rw [resolve_of_operand_eq_some ho, Resolution.output_bind] at h
    split at h
    · cases h
    · rename_i bound hbound
      refine ⟨some bound, h, ?_⟩
      rintro _ ⟨⟩
      exact ⟨o, rfl, hbound⟩

/-- An expression whose operand is a known variable applies its directive to the value of that. -/
theorem output_resolve_of_known {e : Expression} {name : String} {bound : Resolved}
    (hname : e.variableName? = some name) (hknown : env.known? scope name = some (.value bound)) :
    (env.resolve scope e).output = (env.applyDirective scope e (some bound)).output := by
  obtain ⟨o, ho, hvariable⟩ := Option.bind_eq_some_iff.1 hname
  cases o with
  | literal l => cases hvariable
  | variableName _ =>
    cases hvariable
    rw [resolve_of_operand_eq_some ho, resolveOperand, lookUp_eq, hknown]
    rfl

/-- What an expression resolves to with the text of that, or what stands for the text. -/
def evaluate (env : Environment) (scope : Scope) (e : Expression) :
    Resolution (Except String (Resolved × String)) := do
  match ← env.resolve scope e with
  | .error text => return .error text
  | .ok resolved =>
    match env.formatResolved resolved with
    | .ok text => return .ok (resolved, text)
    | .error error =>
      .report (error.atNode e.print)
      return .error e.fallback

/-- A declaration binds its variable to what its expression resolves to, if that has a text. -/
theorem bindingOf_eq (name : String) (e : Expression) : env.bindingOf scope name e =
    (fun
      | .ok result => .value result.1
      | .error _ => .fallback (variableFallback name)) <$> env.evaluate scope e := by
  rw [bindingOf, evaluate, map_bind]
  refine bind_congr fun outcome => ?_
  cases outcome with
  | error text => rfl
  | ok resolved =>
    dsimp only
    cases env.formatResolved resolved <;> rfl

/-- A placeholder becomes the text of what its expression resolves to, or what stands for that. -/
theorem formatExpression_eq (e : Expression) : env.formatExpression scope e =
    (fun
      | .ok result => .expression result.2
      | .error text => .fallback text) <$> env.evaluate scope e := by
  rw [formatExpression, evaluate, map_bind]
  refine bind_congr fun outcome => ?_
  cases outcome with
  | error text => rfl
  | ok resolved =>
    dsimp only
    cases env.formatResolved resolved <;> rfl

end Environment

/-! ### Declarations -/

/-- The variable that the declaration binds, and the expression that it is bound to. -/
def Declaration.binding? : Declaration → Option (String × Expression)
  | input e => e.variableName?.map fun name => (name, e)
  | assign name e => some (name, e)
  | reserved _ => none

theorem Declaration.boundName?_eq (d : Declaration) :
    d.boundName? = d.binding?.map fun binding => binding.1 := by
  cases d with
  | input e => cases h : e.variableName? <;> simp [boundName?, binding?, h]
  | assign name e => rfl
  | reserved statement => rfl

theorem Declaration.mem_expressions_of_binding? {d : Declaration} {name : String} {e : Expression}
    (h : d.binding? = some (name, e)) : e ∈ d.expressions := by
  cases d with
  | input e' =>
    obtain ⟨_, -, ⟨⟩⟩ := Option.map_eq_some_iff.1 h
    exact List.mem_singleton_self _
  | assign name' e' =>
    cases h
    exact List.mem_singleton_self _
  | reserved statement => cases h

namespace Environment

variable {env : Environment} {scope : Scope} {d : Declaration}

/-- A declaration that binds a variable does nothing else. -/
theorem declare_of_binding? {name : String} {e : Expression} (h : d.binding? = some (name, e)) :
    env.declare scope d = (scope.insert name ·) <$> env.bindingOf scope name e := by
  cases d with
  | input e' =>
    obtain ⟨_, hname, ⟨⟩⟩ := Option.map_eq_some_iff.1 h
    simp only [declare, hname, map_eq_pure_bind]
  | assign name' e' =>
    cases h
    simp only [declare, map_eq_pure_bind]
  | reserved statement => cases h

/-- A declaration that binds no variable leaves the scope as it is. -/
theorem output_declare_of_binding? (h : d.binding? = none) :
    (env.declare scope d).output = scope := by
  cases d with
  | input e => simp only [declare, Option.map_eq_none_iff.1 h, Resolution.output_pure]
  | assign name e => cases h
  | reserved statement => rfl

/-- A declaration changes what its own variable is bound to, and no other. -/
theorem find?_declare_of_ne {name : String} (h : d.boundName? ≠ some name) :
    (env.declare scope d).output.find? name = scope.find? name := by
  cases hbinding : d.binding? with
  | none => rw [output_declare_of_binding? hbinding]
  | some binding =>
    obtain ⟨bound, e⟩ := binding
    rw [d.boundName?_eq, hbinding] at h
    rw [declare_of_binding? hbinding, Resolution.output_map,
      NameMap.find?_insert_of_ne _ _ fun heq => h (congrArg some heq.symm)]

/-- A variable that is bound already stays bound, and so becomes the one of the declaration. -/
theorem contains_declare {name : String}
    (h : scope.contains name = true ∨ d.boundName? = some name) :
    (env.declare scope d).output.contains name = true := by
  by_cases hbound : d.boundName? = some name
  · obtain ⟨⟨_, e⟩, hbinding, rfl⟩ := Option.map_eq_some_iff.1 (d.boundName?_eq ▸ hbound)
    rw [declare_of_binding? hbinding, Resolution.output_map, NameMap.contains,
      NameMap.find?_insert_self, Option.isSome_some]
  · rw [NameMap.contains, find?_declare_of_ne hbound]
    exact h.resolve_right hbound

theorem find?_foldlM_declare_of_ne {name : String} {declarations : List Declaration}
    (h : ∀ d ∈ declarations, d.boundName? ≠ some name) :
    (declarations.foldlM env.declare scope).output.find? name = scope.find? name := by
  rw [Resolution.output_foldlM]
  refine List.foldlRecOn (motive := fun bound => NameMap.find? bound name = scope.find? name)
    declarations _ rfl fun bound hbound d hd => ?_
  rw [find?_declare_of_ne (h d hd), hbound]

theorem output_declareAll_append (a b : List Declaration) : (env.declareAll (a ++ b)).output =
    (b.foldlM env.declare (env.declareAll a).output).output := by
  rw [declareAll, List.foldlM_append]
  rfl

end Environment

end MessageFormat
