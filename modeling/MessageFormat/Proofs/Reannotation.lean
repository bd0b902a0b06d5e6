import Mathlib.Data.List.Induction
import MessageFormat.Proofs.Inlining

/-!
# Annotating a value again

A declaration may take its value from the variable of the one before it and call a function on
it.  A call of the function that the value is called with already keeps the options of the earlier
calls, and its own options win over them; a call of another function starts anew, with the same
operand; and without a call the value stays as it is.

Along a chain of such declarations this makes one call out of many (`mergedCall?`).  The induction
is over the chain; what it carries is that the operand of the next link has the given value together
with the merged call of the links so far (`Environment.valueOf?_chainEnd`).

* `Environment.optionsOf` : the options of a call, by name;
* `FunctionCall.merge` : two calls of one function as one;
* `Environment.optionsOf_merge` : the options of the one are the union of those of the two;
* `reannotation` : the last variable of a chain is worth as much as the merged call of the first
  operand.
-/

namespace MessageFormat

/-! ### Values of operands and options -/

namespace Environment

variable {env : Environment} {scope scope' : Scope} {o : Operand} {options : List NamedOption}
  {resolved : Resolved} {node : String}

/-- What an operand resolves to, if it does. -/
def valueOf? (env : Environment) (scope : Scope) : Operand → Option Resolved
  | .literal l => some (.ofValue (.string l.value))
  | .variableName name =>
    match env.known? scope name with
    | some (.value resolved) => some resolved
    | _ => none

/-- The entry of an option, if its value resolves. -/
def entryOf? (env : Environment) (scope : Scope) (o : NamedOption) : Option (String × Value) :=
  (env.valueOf? scope o.value).map fun resolved => (o.identifier.text, resolved.operandOrNull)

/-- The options that resolve, by name. -/
def optionsOf (env : Environment) (scope : Scope) (options : List NamedOption) : Options :=
  .ofList (options.filterMap (env.entryOf? scope))

/-- The call of a function, with its options resolved. -/
def callOf (env : Environment) (scope : Scope) (call : FunctionCall) : Call :=
  ⟨call.identifier.text, env.optionsOf scope call.options⟩

theorem output_resolveOperand_eq_ok_iff :
    (env.resolveOperand scope node o).output = .ok resolved ↔
      env.valueOf? scope o = some resolved := by
  cases o with
  | literal l => simp [resolveOperand, valueOf?]
  | variableName name =>
    rw [resolveOperand, lookUp_eq, valueOf?]
    split
    all_goals
      rename_i hknown
      simp [hknown]

theorem resolveOperand_of_valueOf? (h : env.valueOf? scope o = some resolved) (node : String) :
    env.resolveOperand scope node o = pure (.ok resolved) := by
  cases o with
  | literal l =>
    cases h
    rfl
  | variableName name =>
    rw [valueOf?] at h
    rw [resolveOperand, lookUp_eq]
    split at h
    · rename_i known hknown
      cases h
      rw [hknown]
    · cases h

theorem valueOf?_congr
    (h : ∀ name ∈ o.variableName?, env.known? scope name = env.known? scope' name) :
    env.valueOf? scope o = env.valueOf? scope' o := by
  cases o with
  | literal l => rfl
  | variableName name => rw [valueOf?, valueOf?, h name rfl]

theorem output_resolveOption (o : NamedOption) :
    (env.resolveOption scope node o).output = env.entryOf? scope o := by
  rw [resolveOption, Resolution.output_bind, entryOf?]
  cases hvalue : env.valueOf? scope o.value with
  | some resolved =>
    rw [output_resolveOperand_eq_ok_iff.2 hvalue]
    rfl
  | none =>
    split
    · rename_i resolved hresolved
      rw [output_resolveOperand_eq_ok_iff.1 hresolved] at hvalue
      cases hvalue
    · rfl

theorem output_resolveOptions (node : String) (options : List NamedOption) :
    (env.resolveOptions scope node options).output = env.optionsOf scope options := by
  rw [resolveOptions, Resolution.output_bind, Resolution.output_mapM, Resolution.output_pure,
    List.filterMap_map, optionsOf]
  exact congrArg NameMap.ofList (List.filterMap_congr fun o _ => output_resolveOption o)

/-- Where all options have values, nothing is reported about them. -/
theorem resolveOptions_of_forall (h : ∀ o ∈ options, (env.valueOf? scope o.value).isSome)
    (node : String) :
    env.resolveOptions scope node options = pure (env.optionsOf scope options) := by
  ext1
  · exact output_resolveOptions node options
  · rw [resolveOptions, Resolution.errors_bind, Resolution.errors_mapM, Resolution.errors_pure,
      List.append_nil, Resolution.errors_pure, List.flatMap_eq_nil_iff]
    intro o ho
    obtain ⟨resolved, hresolved⟩ := Option.isSome_iff_exists.1 (h o ho)
    rw [resolveOption, resolveOperand_of_valueOf? hresolved, pure_bind]
    rfl

/-- In a clean scope, the options of an expression that reports no error have values. -/
theorem isSome_valueOf?_of_resolve {e : Expression} {call : FunctionCall} (hclean : scope.IsClean)
    (ho : e.operand = some o) (hcall : e.directive = some (.function call))
    (h : (env.resolve scope e).errors = []) :
    ∀ o ∈ call.options, (env.valueOf? scope o.value).isSome := by
  rw [resolve_of_operand_eq_some ho] at h
  obtain ⟨hoperand, hdirective⟩ := Resolution.errors_bind_eq_nil_iff.1 h
  obtain ⟨bound, hbound⟩ := exists_resolveOperand_eq hclean hoperand
  simp only [hbound, Resolution.output_pure, applyDirective, hcall] at hdirective
  have hoptions := (Resolution.errors_bind_eq_nil_iff.1 hdirective).1
  intro option hoption
  obtain ⟨resolved, hresolved⟩ :=
    exists_resolveOperand_eq hclean (errors_resolveOptions_eq_nil_iff.1 hoptions option hoption)
  exact Option.isSome_iff_exists.2
    ⟨resolved, output_resolveOperand_eq_ok_iff.1 (congrArg Resolution.output hresolved)⟩

end Environment

/-! ### Two calls as one -/

namespace FunctionCall

/-- Whether one of the options has the name. -/
def gives (call : FunctionCall) (name : String) : Bool :=
  (call.options.map (·.identifier.text)).contains name

/-- Two calls of one function as one: the later one, with the options of the earlier one that it
does not give itself. -/
def merge (earlier later : FunctionCall) : FunctionCall :=
  { later with
    options := earlier.options.filter (fun o => !later.gives o.identifier.text) ++ later.options }

/-- A call applied to a value that has been called already: the two calls are merged if they are of
one function, and otherwise the earlier one is dropped. -/
def onto (call : FunctionCall) : Option FunctionCall → FunctionCall
  | some earlier =>
    if earlier.identifier.text = call.identifier.text then earlier.merge call else call
  | none => call

theorem onto_of_ne {call : FunctionCall} {earlier : Option FunctionCall}
    (h : earlier.map (·.identifier.text) ≠ some call.identifier.text) :
    call.onto earlier = call := by
  cases earlier with
  | none => rfl
  | some earlier => exact if_neg fun heq => h (congrArg some heq)

variable {earlier later : FunctionCall}

theorem mem_options_merge {o : NamedOption} (h : o ∈ (earlier.merge later).options) :
    o ∈ earlier.options ∨ o ∈ later.options :=
  (List.mem_append.1 h).imp_left fun hearlier => (List.mem_filter.1 hearlier).1

/-- What passes the check can still be merged into what does. -/
theorem check_merge (hearlier : earlier.check = .ok ()) (hlater : later.check = .ok ()) :
    (earlier.merge later).check = .ok () := by
  rw [check_eq_ok_iff] at hearlier hlater ⊢
  refine ⟨hlater.1, fun o ho => ?_, ?_⟩
  · exact (mem_options_merge ho).elim (hearlier.2.1 o) (hlater.2.1 o)
  · rw [merge, List.map_append, List.nodup_append]
    refine ⟨hearlier.2.2.sublist (List.filter_sublist.map _), hlater.2.2, ?_⟩
    -- the names differ already as they are written
    rintro _ hkept identifier hown rfl
    obtain ⟨o, ho, heq⟩ := List.mem_map.1 hkept
    have hgiven : later.gives o.identifier.text = true := by
      rw [gives, List.contains_iff_mem, heq]
      exact List.mem_map.2 ((List.mem_map.1 hown).imp fun _ h => ⟨h.1, congrArg _ h.2⟩)
    simp [hgiven] at ho

end FunctionCall

namespace Environment

variable {env : Environment} {scope : Scope} {options : List NamedOption} {name : String}

theorem find?_optionsOf : (env.optionsOf scope options).find? name =
    (options.filterMap (env.entryOf? scope)).reverse.lookup name :=
  NameMap.find?_ofList _ name

/-- Which options are left out is a matter of their names. -/
theorem filterMap_entryOf?_filter (keep : String → Bool) (options : List NamedOption) :
    (options.filter fun o => keep o.identifier.text).filterMap (env.entryOf? scope) =
      (options.filterMap (env.entryOf? scope)).filter fun entry => keep entry.1 := by
  rw [List.filterMap_filter, List.filter_filterMap]
  refine List.filterMap_congr fun o _ => ?_
  cases h : env.valueOf? scope o.value with
  | none => simp [entryOf?, h]
  | some resolved => simp [entryOf?, h, Option.filter_some]

/-- The entries have the names of the options that have values. -/
theorem map_fst_entries (options : List NamedOption) :
    (options.filterMap (env.entryOf? scope)).map (·.1) =
      (options.filter fun o => (env.valueOf? scope o.value).isSome).map (·.identifier.text) := by
  induction options with
  | nil => rfl
  | cons o options ih =>
    rw [List.filterMap_cons, List.filter_cons, entryOf?]
    cases env.valueOf? scope o.value with
    | none => exact ih
    | some resolved => exact congrArg _ ih

/-- Options that have values are found under the names that they are written with. -/
theorem find?_optionsOf_eq_none_iff (h : ∀ o ∈ options, (env.valueOf? scope o.value).isSome) :
    (env.optionsOf scope options).find? name = none ↔
      name ∉ options.map (·.identifier.text) := by
  have hentries : (options.filterMap (env.entryOf? scope)).map (·.1) =
      options.map (·.identifier.text) := by
    rw [map_fst_entries, List.filter_eq_self.2 h]
  rw [find?_optionsOf, List.lookup_eq_none_iff, ← hentries]
  simp only [List.mem_reverse, List.mem_map, bne_iff_ne, not_exists, not_and, ne_eq]
  exact forall₂_congr fun entry _ => ne_comm

/-- **Merged options are the union of the options**, in which those of the later call win. -/
theorem optionsOf_merge {earlier later : FunctionCall}
    (h : ∀ o ∈ later.options, (env.valueOf? scope o.value).isSome) :
    env.optionsOf scope (earlier.merge later).options =
      (env.optionsOf scope earlier.options).update (env.optionsOf scope later.options) := by
  ext1 name
  rw [NameMap.find?_update, find?_optionsOf, FunctionCall.merge, List.filterMap_append,
    List.reverse_append, List.lookup_append, ← find?_optionsOf]
  cases hown : (env.optionsOf scope later.options).find? name with
  | some value => rfl
  | none =>
    have hkept : (!later.gives name) = true := by
      rw [Bool.not_eq_true', FunctionCall.gives, ← Bool.not_eq_true, List.contains_iff_mem]
      exact (find?_optionsOf_eq_none_iff h).1 hown
    rw [filterMap_entryOf?_filter (!later.gives ·), ← List.filter_reverse,
      NameMap.lookup_filter (!later.gives ·), if_pos hkept, ← find?_optionsOf]

/-- What a call makes of a value that has been called already. -/
theorem withCall_onto {call : FunctionCall}
    (h : ∀ o ∈ call.options, (env.valueOf? scope o.value).isSome) (value : Option Value)
    (earlier : Option FunctionCall) :
    Resolved.withCall call.identifier.text (env.optionsOf scope call.options)
        (some ⟨value, earlier.map (env.callOf scope)⟩) =
      ⟨value, some (env.callOf scope (call.onto earlier))⟩ := by
  cases earlier with
  | none => simp [Resolved.withCall, FunctionCall.onto, callOf]
  | some earlier =>
    rw [Resolved.withCall, FunctionCall.onto]
    by_cases hname : earlier.identifier.text = call.identifier.text
    · rw [if_pos hname, callOf, optionsOf_merge h]
      simp [callOf, hname, FunctionCall.merge, Option.filter_some]
    · simp [callOf, hname, Option.filter_some]

end Environment

/-! ### Chains of declarations -/

/-- A declaration of a chain, without its operand. -/
structure Link where
  /-- The variable that is made. -/
  name : String
  /-- The call of a function, if there is one. -/
  call? : Option FunctionCall := none
  /-- The attributes, which say nothing about the value. -/
  attributes : List Attribute := []

/-- The expression that a link makes its variable from. -/
def Link.expression (link : Link) (operand : Operand) : Expression :=
  ⟨some operand, link.call?.map .function, link.attributes⟩

@[simp]
theorem Link.call?_expression (link : Link) (operand : Operand) :
    (link.expression operand).call? = link.call? := by
  cases h : link.call? <;> simp [Expression.call?, expression, h]

/-- The call of a chain that goes on with a link. -/
def Link.extend (earlier : Option FunctionCall) (link : Link) : Option FunctionCall :=
  match link.call? with
  | some call => some (call.onto earlier)
  | none => earlier

/-- Declarations of which each takes its value from the one before it, the first from an operand. -/
def chain (operand : Operand) : List Link → List Declaration
  | [] => []
  | link :: rest =>
    .assign link.name (link.expression operand) :: chain (.variableName link.name) rest

/-- What the next link of a chain takes its value from. -/
def chainEnd (operand : Operand) : List Link → Operand
  | [] => operand
  | link :: rest => chainEnd (.variableName link.name) rest

/-- The calls of a chain as one, if there is any. -/
def mergedCall? (links : List Link) : Option FunctionCall := links.foldl Link.extend none

/-- The expression that a chain amounts to. -/
def mergedExpression (operand : Operand) (links : List Link) : Expression where
  operand := some operand
  directive := (mergedCall? links).map .function

theorem chain_append (operand : Operand) (a b : List Link) :
    chain operand (a ++ b) = chain operand a ++ chain (chainEnd operand a) b := by
  induction a generalizing operand with
  | nil => rfl
  | cons link rest ih => rw [List.cons_append, chain, chain, chainEnd, ih, List.cons_append]

theorem exists_mem_chain (operand : Operand) {links : List Link} {link : Link} (h : link ∈ links) :
    ∃ o, .assign link.name (link.expression o) ∈ chain operand links := by
  obtain ⟨before, behind, rfl⟩ := List.append_of_mem h
  exact ⟨chainEnd operand before, by simp [chain_append, chain]⟩

@[simp]
theorem mergedCall?_concat (links : List Link) (link : Link) :
    mergedCall? (links ++ [link]) = link.extend (mergedCall? links) := by
  rw [mergedCall?, List.foldl_append]
  rfl

/-- What holds of every call of a chain, and of two calls as one, holds of all of them as one. -/
theorem forall_mem_mergedCall? {P : FunctionCall → Prop}
    (hmerge : ∀ earlier later, P earlier → P later → P (FunctionCall.merge earlier later))
    {links : List Link} (h : ∀ link ∈ links, ∀ call ∈ link.call?, P call) :
    ∀ call ∈ mergedCall? links, P call := by
  induction links using List.reverseRecOn with
  | nil => nofun
  | append_singleton links link ih =>
    obtain ⟨hlinks, hlink⟩ := List.forall_mem_append.1 h
    rw [mergedCall?_concat, Link.extend]
    cases hcall : link.call? with
    | none => exact ih hlinks
    | some call =>
      rintro _ ⟨⟩
      have hown := hlink link (List.mem_singleton_self link) call hcall
      cases hmerged : mergedCall? links with
      | none => exact hown
      | some earlier =>
        rw [FunctionCall.onto]
        split
        · exact hmerge earlier call (ih hlinks earlier hmerged) hown
        · exact hown

theorem isSome_mergedCall?_iff {links : List Link} :
    (mergedCall? links).isSome ↔ ∃ link ∈ links, link.call? ≠ none := by
  induction links using List.reverseRecOn with
  | nil => simp [mergedCall?]
  | append_singleton links link ih =>
    rw [mergedCall?_concat, Link.extend]
    cases hcall : link.call? with
    | none => simpa [hcall, or_and_right, exists_or] using ih
    | some call => simp [hcall]

@[simp]
theorem call?_mergedExpression (operand : Operand) (links : List Link) :
    (mergedExpression operand links).call? = mergedCall? links := by
  cases h : mergedCall? links <;> simp [Expression.call?, mergedExpression, h]

/-- Links that pass the checks amount to an expression that does. -/
theorem check_mergedExpression {operand : Operand} {links : List Link} (hlinks : links ≠ [])
    (hsound : ∀ d ∈ chain operand links, d.IsSound) :
    (mergedExpression operand links).check = .ok () := by
  have hcheck : ∀ name e, .assign name e ∈ chain operand links → e.check = .ok () := fun _ e h =>
    Expression.check_eq_ok_iff.2 ((hsound _ h).sound e (List.mem_singleton_self e))
  simp only [Expression.check, andThen_eq_ok_iff, within_eq_ok_iff, ifAny_eq_ok_iff,
    call?_mergedExpression] at hcheck ⊢
  obtain ⟨first, rest, rfl⟩ := List.exists_cons_of_ne_nil hlinks
  have hfirst := hcheck first.name (first.expression operand) List.mem_cons_self
  refine ⟨by simp [mergedExpression], hfirst.2.1, ?_, rfl⟩
  refine forall_mem_mergedCall? (fun _ _ => FunctionCall.check_merge) ?_
  intro link hlink call hcall
  obtain ⟨o, ho⟩ := exists_mem_chain operand hlink
  exact (hcheck link.name _ ho).2.2.1 call ((link.call?_expression o).trans hcall)

namespace Environment

variable {env : Environment} {scope : Scope} {operand : Operand} {value : Option Value}
  {earlier : Option FunctionCall} {resolved : Resolved}

/-- **One link of a chain** puts its call onto those before it. -/
theorem eq_of_resolve_link {link : Link}
    (hoperand : env.valueOf? scope operand = some ⟨value, earlier.map (env.callOf scope)⟩)
    (hoptions : ∀ call ∈ link.call?, ∀ o ∈ call.options, (env.valueOf? scope o.value).isSome)
    (h : (env.resolve scope (link.expression operand)).output = .ok resolved) :
    resolved = ⟨value, (link.extend earlier).map (env.callOf scope)⟩ := by
  have ho : (link.expression operand).operand = some operand := rfl
  rw [resolve_of_operand_eq_some ho, resolveOperand_of_valueOf? hoperand, pure_bind] at h
  cases hcall : link.call? with
  | none =>
    have hnone := (link.call?_expression operand).trans hcall
    have hresolved := output_applyDirective_of_call_eq_none hnone h
    rw [Link.extend, hcall]
    exact (Option.some.inj hresolved).symm
  | some call =>
    have hsome := (link.call?_expression operand).trans hcall
    rw [output_applyDirective_of_call hsome, output_resolveOptions,
      withCall_onto (hoptions call hcall)] at h
    split at h
    · rw [Link.extend, hcall]
      exact (Except.ok.inj h).symm
    · cases h

/-- **A chain** gives the operand of its next link the value of its first operand, with the calls of
all its links as one. -/
theorem valueOf?_chainEnd {links : List Link}
    (hoperand : env.valueOf? scope operand = some ⟨value, earlier.map (env.callOf scope)⟩)
    (hoptions : ∀ link ∈ links, ∀ call ∈ link.call?, ∀ o ∈ call.options,
      (env.valueOf? scope o.value).isSome)
    (hbinds : ∀ name e, .assign name e ∈ chain operand links →
      ∃ resolved, env.Binds scope name e resolved) :
    env.valueOf? scope (chainEnd operand links) =
      some ⟨value, (links.foldl Link.extend earlier).map (env.callOf scope)⟩ := by
  induction links generalizing operand earlier with
  | nil => exact hoperand
  | cons link rest ih =>
    obtain ⟨hlink, hrest⟩ := List.forall_mem_cons.1 hoptions
    obtain ⟨bound, hbound⟩ := hbinds _ _ List.mem_cons_self
    obtain rfl := eq_of_resolve_link hoperand hlink (congrArg Resolution.output hbound.resolve_eq)
    refine ih ?_ hrest fun name e hmem => hbinds name e (List.mem_cons_of_mem _ hmem)
    rw [valueOf?, known?_of_find? hbound.find?_eq]

/-! ### A chain at the beginning of a message -/

/-- What the caller gives for an operand: a literal is its own text. -/
def givenValue? (env : Environment) : Operand → Option Value
  | .literal l => some (.string l.value)
  | .variableName name => env.input.find? name

/-- An operand that no declaration binds has the value that the caller gives. -/
theorem exists_givenValue?_of_valueOf? {o : Operand} (h : env.valueOf? scope o = some resolved)
    (hunbound : ∀ name ∈ o.variableName?, scope.find? name = none) :
    ∃ value, env.givenValue? o = some value ∧ resolved = .ofValue value := by
  cases o with
  | literal l => exact ⟨_, rfl, (Option.some.inj h).symm⟩
  | variableName name =>
    rw [valueOf?, known?, hunbound name rfl, Option.none_or] at h
    cases hinput : env.input.find? name with
    | none =>
      rw [hinput] at h
      cases h
    | some value =>
      rw [hinput] at h
      exact ⟨value, hinput, (Option.some.inj h).symm⟩

section Front

variable {front behind : List Declaration} {name : String} {e : Expression}
  (hsound : ∀ d ∈ front, d.IsSound) (hspares : (front ++ behind).Pairwise Declaration.Spares)
  (hclean : (env.declareAll front).errors = []) (hmem : .assign name e ∈ front)
include hsound hspares hclean hmem

/-- Declarations without errors bind their variables also if others follow. -/
theorem exists_binds_declareAll_append :
    ∃ resolved, env.Binds (env.declareAll (front ++ behind)).output name e resolved := by
  obtain ⟨hfront, -, hcross⟩ := List.pairwise_append.1 hspares
  obtain ⟨resolved, hbinds⟩ := exists_binds_foldlM_declare hsound hfront hclean hmem
  rw [output_declareAll_append]
  exact ⟨resolved, hbinds.foldlM_declare (hcross _ hmem)⟩

/-- The options of declarations without errors have values. -/
theorem isSome_valueOf?_declareAll_append {o : Operand} {call : FunctionCall}
    (ho : e.operand = some o) (hcall : e.directive = some (.function call)) :
    ∀ o ∈ call.options,
      (env.valueOf? (env.declareAll (front ++ behind)).output o.value).isSome := by
  obtain ⟨hfront, -, hcross⟩ := List.pairwise_append.1 hspares
  obtain ⟨resolved, hbinds⟩ := exists_binds_foldlM_declare hsound hfront hclean hmem
  have hscope := isClean_foldlM_declare Scope.isClean_empty hsound hclean
  have herrors : (env.resolve (env.declareAll front).output e).errors = [] := by
    rw [hbinds.resolve_eq]
    rfl
  intro option hoption
  rw [output_declareAll_append]
  refine valueOf?_congr (fun read hread => ?_) ▸
    isSome_valueOf?_of_resolve hscope ho hcall herrors option hoption
  refine (known?_foldlM_declare (List.mem_singleton_self e) ?_ (hcross _ hmem)).symm
  refine List.mem_append_right _ (List.mem_filterMap.2 ⟨option, ?_, hread⟩)
  rwa [Expression.call?, hcall]

end Front

section Chain

variable {v : Operand} {links : List Link} {behind : List Declaration}
  (hspares : (chain v links ++ behind).Pairwise Declaration.Spares)
include hspares

theorem isSome_valueOf?_chain (hsound : ∀ d ∈ chain v links, d.IsSound)
    (hclean : (env.declareAll (chain v links)).errors = []) :
    ∀ link ∈ links, ∀ call ∈ link.call?, ∀ o ∈ call.options,
      (env.valueOf? (env.declareAll (chain v links ++ behind)).output o.value).isSome := by
  intro link hlink call hcall
  obtain ⟨o, ho⟩ := exists_mem_chain v hlink
  have hdirective : (link.expression o).directive = some (.function call) := by
    rw [Link.expression, hcall, Option.map_some]
  exact isSome_valueOf?_declareAll_append hsound hspares hclean ho rfl hdirective

/-- The first operand of a chain has the value that the caller gives. -/
theorem exists_givenValue?_chain (hlinks : links ≠ [])
    (hsound : ∀ d ∈ chain v links, d.IsSound)
    (hclean : (env.declareAll (chain v links)).errors = []) :
    ∃ value, env.givenValue? v = some value ∧
      env.valueOf? (env.declareAll (chain v links ++ behind)).output v =
        some (.ofValue value) := by
  obtain ⟨first, rest, rfl⟩ := List.exists_cons_of_ne_nil hlinks
  obtain ⟨resolved, hbinds⟩ :=
    exists_binds_declareAll_append hsound hspares hclean List.mem_cons_self
  have hresolve := congrArg Resolution.output hbinds.resolve_eq
  rw [resolve_of_operand_eq_some rfl, Resolution.output_bind] at hresolve
  split at hresolve
  · cases hresolve
  rename_i bound hbound
  have hvalue := output_resolveOperand_eq_ok_iff.1 hbound
  -- neither the first link nor what follows it binds what the first link reads
  have hunbound : ∀ name ∈ v.variableName?,
      (env.declareAll (chain v (first :: rest) ++ behind)).output.find? name = none := by
    intro name hname
    have hread : name ∈ (first.expression v).reads :=
      List.mem_append_left _ (Option.mem_toList.2 hname)
    rw [chain, List.cons_append] at hspares ⊢
    refine find?_foldlM_declare_of_ne (List.forall_mem_cons.2 ⟨?_, fun d hd hbound => ?_⟩)
    · rintro ⟨⟩
      exact (hsound _ List.mem_cons_self).unread _ _ rfl hread
    · have hfirst := (List.pairwise_cons.1 hspares).1 d hd name hbound
      exact hfirst.2 _ (List.mem_singleton_self _) hread
  obtain ⟨value, hgiven, rfl⟩ := exists_givenValue?_of_valueOf? hvalue hunbound
  exact ⟨value, hgiven, hvalue⟩

end Chain

/-! ### The expression that a chain amounts to -/

variable {links : List Link}

/-- Along a chain of calls of one function, the latest call that gives an option wins. -/
theorem find?_optionsOf_mergedCall? {f : String}
    (hoptions : ∀ link ∈ links, ∀ call ∈ link.call?, ∀ o ∈ call.options,
      (env.valueOf? scope o.value).isSome)
    (hname : ∀ link ∈ links, ∀ call ∈ link.call?, call.identifier.text = f) (name : String) :
    ((mergedCall? links).bind fun call => (env.optionsOf scope call.options).find? name) =
      (links.filterMap (·.call?)).reverse.findSome? fun call =>
        (env.optionsOf scope call.options).find? name := by
  induction links using List.reverseRecOn with
  | nil => rfl
  | append_singleton links link ih =>
    obtain ⟨hoptions, hlink⟩ := List.forall_mem_append.1 hoptions
    obtain ⟨hnames, hname⟩ := List.forall_mem_append.1 hname
    have ih := ih hoptions hnames
    rw [mergedCall?_concat, Link.extend, List.filterMap_append, List.reverse_append,
      List.findSome?_append, ← ih]
    cases hcall : link.call? with
    | none => simp [hcall]
    | some call =>
      have hmerged : ∀ merged ∈ mergedCall? links, merged.identifier.text = f :=
        forall_mem_mergedCall? (fun _ _ _ hlater => hlater) hnames
      cases hearlier : mergedCall? links with
      | none => simp [hcall, FunctionCall.onto]
      | some earlier =>
        have hsame : earlier.identifier.text = call.identifier.text :=
          (hmerged earlier hearlier).trans (hname link (by simp) call hcall).symm
        have honto : call.onto (some earlier) = earlier.merge call := if_pos hsame
        simp only [honto, Option.bind_some, optionsOf_merge (hlink link (by simp) call hcall),
          NameMap.find?_update]
        simp [hcall]

/-- The merged call of a chain makes of the operand what the chain makes of it. -/
theorem resolve_mergedExpression {value : Value} {text : String}
    (hoperand : env.valueOf? scope operand = some (.ofValue value))
    (hoptions : ∀ link ∈ links, ∀ call ∈ link.call?, ∀ o ∈ call.options,
      (env.valueOf? scope o.value).isSome)
    (htext : env.formatResolved ⟨some value, (mergedCall? links).map (env.callOf scope)⟩ =
      .ok text) :
    env.resolve scope (mergedExpression operand links) =
      pure (.ok ⟨some value, (mergedCall? links).map (env.callOf scope)⟩) := by
  have hmerged : ∀ call ∈ mergedCall? links, ∀ o ∈ call.options,
      (env.valueOf? scope o.value).isSome :=
    forall_mem_mergedCall? (fun _ _ hearlier hlater o ho =>
      (FunctionCall.mem_options_merge ho).elim (hearlier o) (hlater o)) hoptions
  have ho : (mergedExpression operand links).operand = some operand := rfl
  rw [resolve_of_operand_eq_some ho, resolveOperand_of_valueOf? hoperand, pure_bind]
  cases hcall : mergedCall? links with
  | none =>
    simp only [applyDirective, mergedExpression, hcall]
    rfl
  | some call =>
    have hcontains : env.registry.contains call.identifier.text = true := by
      rw [NameMap.contains, Option.isSome_iff_ne_none]
      intro hnone
      simp [formatResolved, hcall, callOf, hnone] at htext
    have hwith := withCall_onto (hmerged call hcall) (some value) none
    simp only [applyDirective, mergedExpression, hcall, Option.map_some,
      resolveOptions_of_forall (hmerged call hcall), pure_bind, if_pos hcontains]
    exact congrArg (pure ∘ Except.ok) hwith

/-- The expressions are formatted to the same part with the same errors; as selectors they match the
same keys, and fail together. -/
structure ActsAs (env : Environment) (scope : Scope) (e e' : Expression) : Prop where
  /-- The same part, and the same errors. -/
  formatExpression_eq : env.formatExpression scope e = env.formatExpression scope e'
  /-- The same keys. -/
  output_matchKeys : ∀ keys,
    (env.matchKeys scope e keys).output = (env.matchKeys scope e' keys).output
  /-- An error of the one is an error of the other, at its own place. -/
  errors_matchKeys : ∀ keys,
    (env.matchKeys scope e keys).errors = [] ↔ (env.matchKeys scope e' keys).errors = []

/-- What resolves to the same value with a text acts the same. -/
theorem actsAs_of_resolve {e e' : Expression} {text : String}
    (h : env.resolve scope e = pure (.ok resolved))
    (h' : env.resolve scope e' = pure (.ok resolved))
    (htext : env.formatResolved resolved = .ok text) : env.ActsAs scope e e' where
  formatExpression_eq := by simp only [formatExpression, h, h', pure_bind, htext]
  output_matchKeys keys := by
    simp only [matchKeys, h, h', pure_bind]
    split
    · rfl
    · split <;> rfl
  errors_matchKeys keys := by
    simp only [matchKeys, h, h', pure_bind]
    split
    · simp
    · split <;> simp

/-- Behind a chain without errors, the last variable is bound to the value that the caller gives for
the first operand, with the calls of the chain as one. -/
theorem exists_binds_chain {v : Operand} {earlier : List Link} {last : Link}
    {behind : List Declaration}
    (hsound : ∀ d ∈ chain v (earlier ++ [last]), d.IsSound)
    (hspares : (chain v (earlier ++ [last]) ++ behind).Pairwise Declaration.Spares)
    (hclean : (env.declareAll (chain v (earlier ++ [last]))).errors = [])
    (hscope : (env.declareAll (chain v (earlier ++ [last]) ++ behind)).output = scope) :
    ∃ value, env.givenValue? v = some value ∧ env.valueOf? scope v = some (.ofValue value) ∧
      env.valueOf? scope (chainEnd v earlier) =
        some ⟨some value, (mergedCall? earlier).map (env.callOf scope)⟩ ∧
      env.Binds scope last.name (last.expression (chainEnd v earlier))
        ⟨some value, (mergedCall? (earlier ++ [last])).map (env.callOf scope)⟩ := by
  have hlinks : earlier ++ [last] ≠ [] := by simp
  have hbinds := fun name e (h : .assign name e ∈ chain v (earlier ++ [last])) =>
    hscope ▸ exists_binds_declareAll_append hsound hspares hclean h
  obtain ⟨value, hgiven, hvalue⟩ := exists_givenValue?_chain hspares hlinks hsound hclean
  have hoptions := isSome_valueOf?_chain hspares hsound hclean
  rw [hscope] at hvalue hoptions
  obtain ⟨hearlier, hlast⟩ := List.forall_mem_append.1 hoptions
  rw [chain_append] at hbinds
  have hbefore : env.valueOf? scope (chainEnd v earlier) =
      some ⟨some value, (mergedCall? earlier).map (env.callOf scope)⟩ :=
    valueOf?_chainEnd hvalue hearlier fun name e h => hbinds name e (List.mem_append_left _ h)
  obtain ⟨resolved, hbound⟩ := hbinds last.name (last.expression (chainEnd v earlier))
    (List.mem_append_right _ List.mem_cons_self)
  obtain rfl := eq_of_resolve_link hbefore (hlast last (List.mem_singleton_self last))
    (congrArg Resolution.output hbound.resolve_eq)
  refine ⟨value, hgiven, hvalue, hbefore, ?_⟩
  rwa [mergedCall?_concat]

end Environment

/-- **Annotating a value again.**  A valid message begins with a chain of declarations, each of
which takes its value from the one before it, and none of these reports an error.  Then the last
variable is bound to the value that the caller gives for the first operand.

If all calls along the chain are of one function, it is bound with a call of that function, and an
option of that call is the one that the latest call gives; if the last link has no call, it is bound
to what the link before it was; and if that is called with another function, it is bound with the
call of the last link alone.  In each case it is formatted, and it selects, exactly as the first
operand with the merged call, which is a valid expression. -/
theorem reannotation (env : Environment) {m : Message} (hvalid : m.validate = .ok ()) {v : Operand}
    {earlier : List Link} {last : Link} {behind : List Declaration}
    (hdeclarations : m.declarations = chain v (earlier ++ [last]) ++ behind)
    (hclean : (env.declareAll (chain v (earlier ++ [last]))).errors = []) :
    ∃ value before resolved, env.givenValue? v = some value ∧
      env.valueOf? (env.scopeOf m) (chainEnd v earlier) = some before ∧
      (env.scopeOf m).find? last.name = some (.value resolved) ∧
      before.operand = some value ∧ resolved.operand = some value ∧
      (∀ f, (∃ link ∈ earlier ++ [last], link.call? ≠ none) →
        (∀ link ∈ earlier ++ [last], ∀ call ∈ link.call?, call.identifier.text = f) →
        ∃ options, resolved.call = some ⟨f, options⟩ ∧ ∀ name, options.find? name =
          ((earlier ++ [last]).filterMap (·.call?)).reverse.findSome? fun call =>
            (env.optionsOf (env.scopeOf m) call.options).find? name) ∧
      (last.call? = none → resolved = before) ∧
      (∀ call ∈ last.call?, before.call.map (·.name) ≠ some call.identifier.text →
        resolved.call = some (env.callOf (env.scopeOf m) call)) ∧
      (mergedExpression v (earlier ++ [last])).check = .ok () ∧
      ∀ e, e.RefersTo last.name →
        env.ActsAs (env.scopeOf m) e (mergedExpression v (earlier ++ [last])) := by
  obtain ⟨⟨hsound, hspares⟩, -, -⟩ := Message.validate_eq_ok_iff.1 hvalid
  rw [hdeclarations] at hsound hspares
  have hfront := fun d hd => hsound d (List.mem_append_left behind hd)
  have hscope :
      (env.declareAll (chain v (earlier ++ [last]) ++ behind)).output = env.scopeOf m := by
    rw [Environment.scopeOf, hdeclarations]
  have hoptions := Environment.isSome_valueOf?_chain hspares hfront hclean
  obtain ⟨value, hgiven, hvalue, hbefore, hlast⟩ :=
    Environment.exists_binds_chain hfront hspares hclean hscope
  obtain ⟨text, htext⟩ := hlast.exists_text
  rw [hscope] at hoptions
  refine ⟨value, _, _, hgiven, hbefore, hlast.find?_eq, rfl, rfl, fun f hsome hname => ?_,
    fun hcall => ?_, fun call hcall hother => ?_, check_mergedExpression (by simp) hfront,
    fun e he => ?_⟩
  · -- calls of one function
    obtain ⟨call, hcall⟩ := Option.isSome_iff_exists.1 (isSome_mergedCall?_iff.2 hsome)
    have hf : call.identifier.text = f :=
      forall_mem_mergedCall? (fun _ _ _ hlater => hlater) hname call hcall
    have hoption := Environment.find?_optionsOf_mergedCall? hoptions hname
    simp only [hcall, Option.bind_some] at hoption
    refine ⟨_, ?_, hoption⟩
    rw [hcall, Option.map_some, Environment.callOf, hf]
  · -- no call
    rw [mergedCall?_concat, Link.extend, hcall]
  · -- a call of another function
    rw [Option.map_map] at hother
    rw [mergedCall?_concat, Link.extend, hcall]
    exact congrArg (some ∘ env.callOf (env.scopeOf m)) (FunctionCall.onto_of_ne hother)
  · exact Environment.actsAs_of_resolve (Environment.resolve_of_refersTo he hlast.find?_eq)
      (Environment.resolve_mergedExpression hvalue hoptions htext) htext

/-- The option of a number that says how many digits its fraction has at least or at most. -/
def fractionDigits (bound digits : String) : NamedOption :=
  ⟨⟨none, bound ++ "FractionDigits"⟩, .literal (.quoted digits)⟩

/-- A link that calls the function of numbers. -/
def numberLink (name : String) (options : List NamedOption) : Link where
  name := name
  call? := some ⟨⟨none, "number"⟩, options⟩

/-- The links of `{|5| :number minimumFractionDigits=|2| maximumFractionDigits=|2|}`, `{$first}` and
`{$second :number maximumFractionDigits=|4|}`. -/
def priceLinks : List Link :=
  [numberLink "first" [fractionDigits "minimum" "2", fractionDigits "maximum" "2"],
    { name := "second" }]

/-- The last of these links. -/
def lastPriceLink : Link := numberLink "third" [fractionDigits "maximum" "4"]

/-- A reference to the last variable of the chain. -/
def priceReference : Expression where
  operand := some (.variableName "third")

/-- A message of a chain and its last variable. -/
def price : Message :=
  .complex (chain (.literal (.quoted "5")) (priceLinks ++ [lastPriceLink]))
    (.pattern [.expression priceReference])

theorem reannotation_price :
    price.validate = .ok () ∧
      ((Environment.standard .empty).declareAll
        (chain (.literal (.quoted "5")) (priceLinks ++ [lastPriceLink]))).errors = [] ∧
      (Environment.standard .empty).ActsAs ((Environment.standard .empty).scopeOf price)
        priceReference {
          operand := some (.literal (.quoted "5"))
          directive := some (.function ⟨⟨none, "number"⟩,
            [fractionDigits "minimum" "2", fractionDigits "maximum" "4"]⟩) } := by
  have hvalid : price.validate = .ok () := by decide +kernel
  have hclean : ((Environment.standard .empty).declareAll
      (chain (.literal (.quoted "5")) (priceLinks ++ [lastPriceLink]))).errors = [] := by
    decide +kernel
  have hdeclarations : price.declarations =
      chain (.literal (.quoted "5")) (priceLinks ++ [lastPriceLink]) ++ [] := rfl
  obtain ⟨-, -, -, -, -, -, -, -, -, -, -, -, hacts⟩ :=
    reannotation (.standard .empty) hvalid hdeclarations hclean
  exact ⟨hvalid, hclean, hacts priceReference ⟨rfl, rfl⟩⟩

end MessageFormat
