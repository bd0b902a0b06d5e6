import MessageFormat.Proofs.Fallbacks

/-!
# One fallback for every failure

Whatever makes a placeholder fail, the text that stands for it is the same: it is told by the
expression alone.  A failure is reported once: a variable whose declaration has failed is bound to
its fallback, and whatever takes its value from that is passed over in silence.

The invariant behind the first half is that of the scope: a variable without a value is bound to the
text that stands for that very variable (`Scope.NamesFallbacks`), also if it failed because another
one did.

* `Expression.StandIn` : the text that stands for an expression;
* `Environment.fallback_of_resolve` : an expression that does not resolve gives its own fallback;
* `Environment.resolve_of_fallback` : a variable without a value ends the matter in silence;
* `one_fallback` : what this means for the output and for the errors.
-/

namespace MessageFormat

/-! ### The text that stands for an expression -/

/-- The text stands for the expression: its variable, its literal between bars, or else the name of
its function or its sigil, between braces. -/
inductive Expression.StandIn (e : Expression) : String → Prop where
  /-- A variable. -/
  | variableName {name : String} (h : e.operand = some (.variableName name)) :
      StandIn e ("\x7b$" ++ name ++ "\x7d")
  /-- A literal, with its text escaped. -/
  | literal {l : Literal} (h : e.operand = some (.literal l)) :
      StandIn e ("\x7b|" ++ escapeQuoted l.value ++ "|\x7d")
  /-- A function without an operand. -/
  | call {call : FunctionCall} (hoperand : e.operand = none)
      (h : e.directive = some (.function call)) :
      StandIn e ("\x7b:" ++ call.identifier.text ++ "\x7d")
  /-- A reserved or private-use directive without an operand. -/
  | sigil {directive : ReservedDirective} (hoperand : e.operand = none)
      (h : e.directive = some (.privateUse directive) ∨ e.directive = some (.reserved directive)) :
      StandIn e ("\x7b" ++ String.singleton directive.sigil ++ "\x7d")

namespace Expression

variable {e : Expression} {text other : String}

theorem StandIn.eq_fallback (h : e.StandIn text) : text = e.fallback := by
  cases h with
  | variableName h =>
    rw [fallback, h]
    rfl
  | @literal l h =>
    have hbars : "\x7b|" ++ escapeQuoted l.value ++ "|\x7d" =
        "\x7b" ++ printQuoted l.value ++ "\x7d" := by
      have hopen : "\x7b|" = "\x7b" ++ "|" := rfl
      have hclose : "|\x7d" = "|" ++ "\x7d" := rfl
      rw [hopen, hclose, printQuoted]
      simp only [String.append_assoc]
    rw [fallback, h, hbars]
  | call hoperand h => rw [fallback, hoperand, h]
  | sigil hoperand h =>
    rcases h with h | h
    all_goals rw [fallback, hoperand, h]

/-- Only an expression with nothing in it has no such text. -/
theorem standIn_fallback (h : e.operand ≠ none ∨ e.directive ≠ none) : e.StandIn e.fallback := by
  have hstands : ∃ text, e.StandIn text := by
    cases hoperand : e.operand with
    | some operand =>
      cases operand with
      | variableName name => exact ⟨_, .variableName hoperand⟩
      | literal l => exact ⟨_, .literal hoperand⟩
    | none =>
      cases hdirective : e.directive with
      | none => exact absurd h (by simp [hoperand, hdirective])
      | some directive =>
        cases directive with
        | function call => exact ⟨_, .call hoperand hdirective⟩
        | privateUse directive => exact ⟨_, .sigil hoperand (.inl hdirective)⟩
        | reserved directive => exact ⟨_, .sigil hoperand (.inr hdirective)⟩
  obtain ⟨text, hstands⟩ := hstands
  exact hstands.eq_fallback ▸ hstands

theorem fallback_of_variableName? {name : String} (h : e.variableName? = some name) :
    e.fallback = variableFallback name := by
  rw [fallback, variableName?_eq_some_iff.1 h]

end Expression

/-! ### Scopes -/

/-- A variable without a value is bound to the text that stands for it. -/
def Scope.NamesFallbacks (scope : Scope) : Prop :=
  ∀ name text, scope.find? name = some (.fallback text) → text = variableFallback name

theorem Scope.namesFallbacks_empty : Scope.NamesFallbacks .empty := nofun

theorem Scope.NamesFallbacks.insert {scope : Scope} (h : scope.NamesFallbacks) {name : String}
    {binding : Binding}
    (hbinding : ∀ text, binding = .fallback text → text = variableFallback name) :
    Scope.NamesFallbacks (scope.insert name binding) := by
  intro other text hother
  rw [NameMap.find?_insert] at hother
  split at hother
  · rename_i heq
    exact heq ▸ hbinding text (Option.some.inj hother)
  · exact h other text hother

namespace Environment

variable {env : Environment} {scope : Scope} {e : Expression} {name text : String}

theorem namesFallbacks_declare (h : scope.NamesFallbacks) (d : Declaration) :
    Scope.NamesFallbacks (env.declare scope d).output := by
  cases hbinding : d.binding? with
  | none => rwa [output_declare_of_binding? hbinding]
  | some binding =>
    obtain ⟨name, e⟩ := binding
    rw [declare_of_binding? hbinding, bindingOf_eq, Resolution.output_map, Resolution.output_map]
    refine h.insert fun text htext => ?_
    -- a failed declaration names the variable that it binds, and not the one that it reads
    split at htext
    · cases htext
    · cases htext
      rfl

theorem namesFallbacks_foldlM_declare (h : scope.NamesFallbacks) (declarations : List Declaration) :
    Scope.NamesFallbacks (declarations.foldlM env.declare scope).output := by
  rw [Resolution.output_foldlM]
  exact List.foldlRecOn declarations _ h fun _ hbound d _ => namesFallbacks_declare hbound d

theorem namesFallbacks_scopeOf (env : Environment) (m : Message) : (env.scopeOf m).NamesFallbacks :=
  namesFallbacks_foldlM_declare Scope.namesFallbacks_empty m.declarations

/-! ### Failing expressions -/

theorem eq_variableFallback_of_resolveOperand (hscope : scope.NamesFallbacks) {node : String}
    {o : Operand} (h : (env.resolveOperand scope node o).output = .error text) :
    ∃ name, o = .variableName name ∧ text = variableFallback name := by
  cases o with
  | literal l => cases h
  | variableName name =>
    refine ⟨name, rfl, ?_⟩
    rw [resolveOperand, lookUp] at h
    split at h
    · cases h
    · rename_i hfind
      cases h
      exact hscope name text hfind
    · split at h
      · cases h
      · cases h
        rfl

theorem fallback_of_applyDirective {operand : Option Resolved}
    (h : (env.applyDirective scope e operand).output = .error text) : text = e.fallback := by
  unfold applyDirective at h
  split at h
  · cases operand with
    | none =>
      cases h
      rfl
    | some operand => cases h
  · rw [Resolution.output_bind] at h
    split at h
    · cases h
    · cases h
      rfl
  · cases h
    rfl
  · cases h
    rfl

/-- **An expression that does not resolve gives its own fallback**, whatever the cause. -/
theorem fallback_of_resolve (hscope : scope.NamesFallbacks)
    (h : (env.resolve scope e).output = .error text) : text = e.fallback := by
  cases ho : e.operand with
  | none =>
    rw [resolve_of_operand_eq_none ho] at h
    exact fallback_of_applyDirective h
  | some o =>
    rw [resolve_of_operand_eq_some ho, Resolution.output_bind] at h
    split at h
    · rename_i other hother
      obtain ⟨name, rfl, rfl⟩ := eq_variableFallback_of_resolveOperand hscope hother
      cases h
      rw [Expression.fallback_of_variableName? (Expression.variableName?_eq_some_iff.2 ho)]
    · exact fallback_of_applyDirective h

/-- So does one that resolves to a value which cannot be formatted. -/
theorem fallback_of_formatExpression (hscope : scope.NamesFallbacks)
    (h : (env.formatExpression scope e).output = .fallback text) : text = e.fallback := by
  rw [formatExpression, Resolution.output_bind] at h
  split at h
  · rename_i other hother
    cases h
    exact fallback_of_resolve hscope hother
  · split at h
    · cases h
    · cases h
      rfl

/-! ### Silence behind a failed declaration -/

section Silence

variable (hname : e.variableName? = some name) (h : scope.find? name = some (.fallback text))
include hname h

/-- **A variable without a value ends the matter in silence**: neither the directive nor the options
of the expression are looked at. -/
theorem resolve_of_fallback : env.resolve scope e = pure (.error text) := by
  rw [resolve_of_operand_eq_some (Expression.variableName?_eq_some_iff.1 hname), resolveOperand,
    lookUp_eq, known?_of_find? h, pure_bind]

theorem formatExpression_of_fallback :
    env.formatExpression scope e = pure (.fallback text) := by
  rw [formatExpression, resolve_of_fallback hname h, pure_bind]

theorem matchKeys_of_fallback (keys : List String) : env.matchKeys scope e keys = pure none := by
  rw [matchKeys, resolve_of_fallback hname h, pure_bind]

theorem declare_of_fallback {d : Declaration} {other : String}
    (hbinding : d.binding? = some (other, e)) : env.declare scope d =
      pure (scope.insert other (.fallback (variableFallback other))) := by
  rw [declare_of_binding? hbinding, bindingOf, resolve_of_fallback hname h, pure_bind, map_pure]

end Silence

/-- The declarations leave the variable without a value. -/
def Fails (env : Environment) (declarations : List Declaration) (name : String) : Prop :=
  ∃ text, (env.declareAll declarations).output.find? name = some (.fallback text)

/-- Declarations that do not bind the variable leave it without a value. -/
theorem Fails.append {a b : List Declaration} (h : env.Fails a name)
    (hb : ∀ d ∈ b, d.boundName? ≠ some name) : env.Fails (a ++ b) name := by
  obtain ⟨text, htext⟩ := h
  exact ⟨text, by rw [output_declareAll_append, find?_foldlM_declare_of_ne hb, htext]⟩

theorem Fails.find?_eq {declarations : List Declaration} (h : env.Fails declarations name) :
    (env.declareAll declarations).output.find? name = some (.fallback (variableFallback name)) := by
  obtain ⟨text, htext⟩ := h
  have hscope : Scope.NamesFallbacks (env.declareAll declarations).output :=
    namesFallbacks_foldlM_declare Scope.namesFallbacks_empty declarations
  rw [htext, hscope name text htext]

/-- A declaration whose operand has no value leaves its own variable without one, and reports
nothing. -/
theorem Fails.declare {declarations : List Declaration} (h : env.Fails declarations name)
    (hname : e.variableName? = some name) {d : Declaration} {other : String}
    (hbinding : d.binding? = some (other, e)) :
    (env.declareAll (declarations ++ [d])).errors = (env.declareAll declarations).errors ∧
      env.Fails (declarations ++ [d]) other := by
  have hdeclare : env.declare (env.declareAll declarations).output d =
      pure ((env.declareAll declarations).output.insert other
        (.fallback (variableFallback other))) :=
    declare_of_fallback hname h.find?_eq hbinding
  have hall : env.declareAll (declarations ++ [d]) =
      env.declareAll declarations >>= (env.declare · d) := by
    rw [declareAll, List.foldlM_append]
    simp only [List.foldlM_cons, List.foldlM_nil, bind_pure]
    rfl
  constructor
  · rw [hall, Resolution.errors_bind, hdeclare, Resolution.errors_pure, List.append_nil]
  · refine ⟨variableFallback other, ?_⟩
    rw [hall, Resolution.output_bind, hdeclare, Resolution.output_pure, NameMap.find?_insert_self]

/-- A variable is without a value only if an error has been reported. -/
theorem Fails.errors_ne_nil {declarations : List Declaration} (h : env.Fails declarations name)
    (hsound : ∀ d ∈ declarations, d.IsSound) : (env.declareAll declarations).errors ≠ [] := by
  obtain ⟨text, htext⟩ := h
  exact fun herrors => isClean_foldlM_declare Scope.isClean_empty hsound herrors name text htext

end Environment

/-- **One fallback for every failure, reported once.**  In a valid message, a placeholder that
fails becomes the text that stands for its expression, of which there is only one.  If a declaration
fails, an error has been reported; and whatever takes the variable for its operand, in another
declaration, in a placeholder or in a selector, fails without a further error. -/
theorem one_fallback (env : Environment) {m : Message} (hvalid : m.validate = .ok ()) :
    (∀ (i : Nat) (e : Expression) (text : String), (env.patternOf m)[i]? = some (.expression e) →
      (env.formatToParts m).output[i]? = some (.fallback text) →
        e.StandIn text ∧ ∀ other, e.StandIn other → other = text) ∧
    ∀ before d behind name, m.declarations = before ++ d :: behind → d.boundName? = some name →
      env.Fails (before ++ [d]) name →
      (env.declareAll (before ++ [d])).errors ≠ [] ∧
      (∀ between later rest other e, behind = between ++ later :: rest →
        later.binding? = some (other, e) → e.variableName? = some name →
          (env.declareAll (before ++ d :: between ++ [later])).errors =
              (env.declareAll (before ++ d :: between)).errors ∧
            env.Fails (before ++ d :: between ++ [later]) other) ∧
      ∀ e, e.variableName? = some name →
        env.formatExpression (env.scopeOf m) e = ⟨.fallback ("\x7b$" ++ name ++ "\x7d"), []⟩ ∧
          ∀ keys, env.matchKeys (env.scopeOf m) e keys = ⟨none, []⟩ := by
  obtain ⟨⟨hsound, hspares⟩, -, hpatterns⟩ := Message.validate_eq_ok_iff.1 hvalid
  constructor
  · intro i e text hpart houtput
    have hpattern := env.patternOf_mem_patterns (Message.forall_matcher_valid hvalid)
    have hexpressions := (Pattern.check_eq_ok_iff.1 (hpatterns _ hpattern)).1
    have hfilled := (hexpressions e
      (List.mem_filterMap.2 ⟨_, List.mem_of_getElem? hpart, rfl⟩)).filled
    rw [env.output_formatToParts, Environment.formatPattern, Resolution.output_mapM,
      List.getElem?_map, hpart, Option.map_some] at houtput
    have htext := Environment.fallback_of_formatExpression (env.namesFallbacks_scopeOf m)
      (Option.some.inj houtput)
    rw [htext]
    exact ⟨Expression.standIn_fallback hfilled, fun other hother => hother.eq_fallback⟩
  · intro before d behind name hdeclarations hbound hfails
    rw [hdeclarations] at hsound hspares
    -- no later declaration binds the variable again
    have hkeeps : ∀ later ∈ behind, later.boundName? ≠ some name := fun later hlater hagain =>
      ((List.pairwise_cons.1 (List.pairwise_append.1 hspares).2.1).1 later hlater name hagain).1
        hbound
    refine ⟨hfails.errors_ne_nil fun other hother => hsound other ?_, ?_, fun e he => ?_⟩
    · rw [List.append_cons]
      exact List.mem_append_left _ hother
    · rintro between later rest other e rfl hbinding he
      rw [List.append_cons before d between]
      exact (hfails.append fun d hd => hkeeps d (List.mem_append_left _ hd)).declare he hbinding
    · have hscope : env.Fails m.declarations name := by
        rw [hdeclarations, List.append_cons]
        exact hfails.append hkeeps
      exact ⟨Environment.formatExpression_of_fallback he hscope.find?_eq,
        Environment.matchKeys_of_fallback he hscope.find?_eq⟩

/-- The declaration `.local $first = {$missing}`. -/
def firstDeclaration : Declaration :=
  .assign "first" { operand := some (.variableName "missing") }

/-- The expression `{$first :shout}`. -/
def firstShouted : Expression where
  operand := some (.variableName "first")
  directive := some (.function ⟨⟨none, "shout"⟩, []⟩)

/-- A message with a declaration that fails, and another one that takes its value from that. -/
def echo : Message :=
  .complex [firstDeclaration, .assign "second" firstShouted]
    (.pattern [.expression { operand := some (.variableName "second") }])

/-- The function that is not there is not reported, since its operand has no value. -/
theorem one_fallback_echo :
    echo.validate = .ok () ∧ (Environment.standard .empty).Fails [firstDeclaration] "first" ∧
      ((Environment.standard .empty).formatToParts echo).output[0]? =
        some (.fallback "\x7b$second\x7d") ∧
      Expression.StandIn { operand := some (.variableName "second") } "\x7b$second\x7d" ∧
      ((Environment.standard .empty).declareAll echo.declarations).errors =
        ((Environment.standard .empty).declareAll [firstDeclaration]).errors ∧
      (Environment.standard .empty).formatExpression ((Environment.standard .empty).scopeOf echo)
        firstShouted = ⟨.fallback "\x7b$first\x7d", []⟩ := by
  have hfails : (Environment.standard .empty).Fails [firstDeclaration] "first" := ⟨_, rfl⟩
  have houtput : ((Environment.standard .empty).formatToParts echo).output[0]? =
      some (.fallback "\x7b$second\x7d") := rfl
  obtain ⟨hstands, hsilent⟩ := one_fallback (.standard .empty) (m := echo) rfl
  obtain ⟨-, hdeclare, hlater⟩ := hsilent [] firstDeclaration _ "first" rfl rfl hfails
  exact ⟨rfl, hfails, houtput, (hstands 0 _ _ rfl houtput).1,
    (hdeclare [] _ [] "second" firstShouted rfl rfl rfl).1, (hlater firstShouted rfl).1⟩

end MessageFormat
