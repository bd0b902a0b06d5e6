import Mathlib.Data.List.Forall2
import MessageFormat.Proofs.Resolving
import MessageFormat.Proofs.Selection

/-!
# No part is lost and no fallback is silent

Every part of the pattern that a message chooses is formatted to one part of the output.  Where a
placeholder is replaced by a fallback, an error has been reported: if not for the placeholder itself,
then for a declaration that it depends on, through whatever chain of declarations.

The invariant behind this is that of a run without errors: its scope binds no variable to a
fallback (`Scope.IsClean`), so that every expression resolves to a value that can be formatted.

* `Environment.exists_resolve_eq` : an expression resolves, unless it reports an error;
* `Environment.isClean_foldlM_declare` : declarations that report no error keep the scope clean;
* `no_silent_fallback` : what this means for the output.
-/

namespace MessageFormat

/-! ### The parts of the output -/

/-- What a part of a pattern may be formatted to. -/
inductive PatternPart.FormatsTo : PatternPart → FormattedPart → Prop where
  /-- Text stays as it is. -/
  | text (text : String) : FormatsTo (.text text) (.text text)
  /-- An expression is formatted to the text of its value, -/
  | expression (e : Expression) (text : String) : FormatsTo (.expression e) (.expression text)
  /-- or to what stands for that. -/
  | fallback (e : Expression) (text : String) : FormatsTo (.expression e) (.fallback text)
  /-- Markup keeps its kind and its name. -/
  | markup (m : Markup) (options : Options) :
    FormatsTo (.markup m) (.markup m.kind m.identifier.text options)

namespace Environment

variable {env : Environment} {scope : Scope} {e : Expression} {name : String}

theorem formatsTo_formatPart (part : PatternPart) :
    part.FormatsTo (env.formatPart scope part).output := by
  cases part with
  | text text => exact .text text
  | expression e =>
    rw [formatPart, formatExpression_eq, Resolution.output_map]
    split
    · exact .expression e _
    · exact .fallback e _
  | markup m => exact .markup m _

theorem forall₂_formatPattern (pattern : Pattern) :
    List.Forall₂ PatternPart.FormatsTo pattern (env.formatPattern scope pattern).output := by
  rw [formatPattern, Resolution.output_mapM, List.forall₂_map_right_iff, List.forall₂_same]
  exact fun part _ => formatsTo_formatPart part

end Environment

/-! ### Clean scopes -/

/-- No variable is bound to what stands for a value. -/
def Scope.IsClean (scope : Scope) : Prop := ∀ name text, scope.find? name ≠ some (.fallback text)

theorem Scope.isClean_empty : Scope.IsClean .empty := nofun

theorem Scope.IsClean.insert {scope : Scope} (h : scope.IsClean) (name : String)
    (resolved : Resolved) : Scope.IsClean (scope.insert name (.value resolved)) := by
  intro other text hother
  rw [NameMap.find?_insert] at hother
  split at hother
  · cases hother
  · exact h other text hother

theorem Scope.IsClean.known?_ne_fallback {scope : Scope} (h : scope.IsClean) (env : Environment)
    (name text : String) : env.known? scope name ≠ some (.fallback text) := by
  unfold Environment.known?
  cases hfind : scope.find? name with
  | some binding =>
    rw [Option.some_or, ← hfind]
    exact h name text
  | none => cases env.input.find? name <;> simp

/-! ### Expressions without errors -/

namespace Environment

variable {env : Environment} {scope : Scope} {e : Expression}

theorem exists_resolveOperand_eq (hclean : scope.IsClean) {node : String} {o : Operand}
    (h : (env.resolveOperand scope node o).errors = []) :
    ∃ resolved, env.resolveOperand scope node o = pure (.ok resolved) := by
  cases o with
  | literal l => exact ⟨_, rfl⟩
  | variableName name =>
    rw [resolveOperand, lookUp_eq] at h ⊢
    split
    · exact ⟨_, rfl⟩
    · rename_i text htext
      exact absurd htext (hclean.known?_ne_fallback env name text)
    · rename_i hnone
      simp [hnone] at h

/-- Applied to a value, a directive gives a value, unless it reports an error. -/
theorem exists_applyDirective_eq {operand : Option Resolved}
    (hfilled : operand ≠ none ∨ e.directive ≠ none)
    (h : (env.applyDirective scope e operand).errors = []) :
    ∃ resolved, env.applyDirective scope e operand = pure (.ok resolved) := by
  unfold applyDirective at h ⊢
  split
  · rename_i hdirective
    obtain ⟨resolved, rfl⟩ :=
      Option.ne_none_iff_exists'.1 (hfilled.resolve_right (not_not.2 hdirective))
    exact ⟨resolved, rfl⟩
  · rename_i call hdirective
    simp only [hdirective] at h
    obtain ⟨hoptions, hcall⟩ := Resolution.errors_bind_eq_nil_iff.1 h
    split at hcall
    · rename_i hcontains
      rw [Resolution.eq_pure_of_errors hoptions, pure_bind, if_pos hcontains]
      exact ⟨_, rfl⟩
    · simp at hcall
  · rename_i hdirective
    simp [hdirective] at h
  · rename_i hdirective
    simp [hdirective] at h

/-- In a clean scope an expression resolves to a value, unless it reports an error. -/
theorem exists_resolve_eq (hclean : scope.IsClean)
    (hfilled : e.operand ≠ none ∨ e.directive ≠ none) (h : (env.resolve scope e).errors = []) :
    ∃ resolved, env.resolve scope e = pure (.ok resolved) := by
  cases ho : e.operand with
  | none =>
    rw [resolve_of_operand_eq_none ho] at h ⊢
    exact exists_applyDirective_eq (.inr (hfilled.resolve_left (not_not.2 ho))) h
  | some o =>
    rw [resolve_of_operand_eq_some ho] at h ⊢
    obtain ⟨hoperand, hdirective⟩ := Resolution.errors_bind_eq_nil_iff.1 h
    obtain ⟨resolved, hresolved⟩ := exists_resolveOperand_eq hclean hoperand
    rw [hresolved] at hdirective ⊢
    exact exists_applyDirective_eq (.inl (Option.some_ne_none resolved)) hdirective

/-- In a clean scope an expression resolves to a value with a text, unless it reports an error. -/
theorem exists_evaluate_eq (hclean : scope.IsClean)
    (hfilled : e.operand ≠ none ∨ e.directive ≠ none) (h : (env.evaluate scope e).errors = []) :
    ∃ resolved text, env.resolve scope e = pure (.ok resolved) ∧
      env.formatResolved resolved = .ok text ∧
        env.evaluate scope e = pure (.ok (resolved, text)) := by
  obtain ⟨hresolve, hformat⟩ := Resolution.errors_bind_eq_nil_iff.1 h
  obtain ⟨resolved, hresolved⟩ := exists_resolve_eq hclean hfilled hresolve
  cases htext : env.formatResolved resolved with
  | error error => simp [hresolved, htext] at hformat
  | ok text => exact ⟨resolved, text, hresolved, htext, by simp [evaluate, hresolved, htext]⟩

/-! ### Declarations without errors -/

/-- A declaration that reports no error keeps a clean scope clean. -/
theorem isClean_declare (hclean : scope.IsClean) {d : Declaration} (hd : d.IsSound)
    (h : (env.declare scope d).errors = []) : Scope.IsClean (env.declare scope d).output := by
  cases hbinding : d.binding? with
  | none => rwa [output_declare_of_binding? hbinding]
  | some binding =>
    obtain ⟨name, e⟩ := binding
    have he := hd.sound e (Declaration.mem_expressions_of_binding? hbinding)
    rw [declare_of_binding? hbinding, bindingOf_eq] at h ⊢
    rw [Resolution.errors_map, Resolution.errors_map] at h
    obtain ⟨resolved, _, -, -, heq⟩ := exists_evaluate_eq hclean he.filled h
    rw [heq]
    exact hclean.insert name resolved

/-- **Without an error, no declaration binds its variable to a fallback**, however long the chain of
declarations that it depends on. -/
theorem isClean_foldlM_declare (hclean : scope.IsClean) {declarations : List Declaration}
    (hsound : ∀ d ∈ declarations, d.IsSound)
    (h : (declarations.foldlM env.declare scope).errors = []) :
    Scope.IsClean (declarations.foldlM env.declare scope).output := by
  induction declarations generalizing scope with
  | nil => exact hclean
  | cons d rest ih =>
    rw [List.foldlM_cons] at h ⊢
    obtain ⟨hd, hrest⟩ := Resolution.errors_bind_eq_nil_iff.1 h
    obtain ⟨hsoundd, hsoundrest⟩ := List.forall_mem_cons.1 hsound
    exact ih (isClean_declare hclean hsoundd hd) hsoundrest hrest

/-! ### Patterns without errors -/

theorem fallback_notMem_formatPattern (hclean : scope.IsClean) {pattern : Pattern}
    (hsound : ∀ e ∈ pattern.filterMap PatternPart.expression?, e.IsSound)
    (h : (env.formatPattern scope pattern).errors = []) (text : String) :
    .fallback text ∉ (env.formatPattern scope pattern).output := by
  rw [formatPattern, Resolution.errors_mapM, List.flatMap_eq_nil_iff] at h
  rw [formatPattern, Resolution.output_mapM, List.mem_map]
  rintro ⟨part, hpart, houtput⟩
  cases part with
  | text => cases houtput
  | markup => cases houtput
  | expression e =>
    have hfilled := (hsound e (List.mem_filterMap.2 ⟨_, hpart, rfl⟩)).filled
    have hevaluate := h _ hpart
    rw [formatPart, formatExpression_eq, Resolution.errors_map] at hevaluate
    obtain ⟨_, _, -, -, heq⟩ := exists_evaluate_eq hclean hfilled hevaluate
    rw [formatPart, formatExpression_eq, heq] at houtput
    cases houtput

/-- A run of a valid message without errors: what it passes through is clean. -/
theorem isClean_scopeOf {m : Message} (hvalid : m.validate = .ok ())
    (h : (env.formatToParts m).errors = []) : (env.scopeOf m).IsClean := by
  obtain ⟨⟨hdeclarations, -⟩, -, -⟩ := Message.validate_eq_ok_iff.1 hvalid
  rw [errors_formatToParts] at h
  exact isClean_foldlM_declare Scope.isClean_empty hdeclarations (List.append_eq_nil_iff.1 h).1

end Environment

/-- **No part is lost and no fallback is silent.**  A valid message chooses one of its patterns; each
part of that is formatted to one part of the output, in order; and if one of these stands for a value
that could not be formatted, then an error has been reported. -/
theorem no_silent_fallback (env : Environment) {m : Message} (hvalid : m.validate = .ok ()) :
    env.patternOf m ∈ m.patterns ∧
      List.Forall₂ PatternPart.FormatsTo (env.patternOf m) (env.formatToParts m).output ∧
      ((∃ text, .fallback text ∈ (env.formatToParts m).output) →
        (env.formatToParts m).errors ≠ []) := by
  obtain ⟨-, -, hpatterns⟩ := Message.validate_eq_ok_iff.1 hvalid
  have hpattern := env.patternOf_mem_patterns (Message.forall_matcher_valid hvalid)
  refine ⟨hpattern, ?_, ?_⟩
  · rw [env.output_formatToParts]
    exact Environment.forall₂_formatPattern _
  · rintro ⟨text, htext⟩ herrors
    have hclean := Environment.isClean_scopeOf hvalid herrors
    rw [env.errors_formatToParts, List.append_eq_nil_iff, List.append_eq_nil_iff] at herrors
    rw [env.output_formatToParts] at htext
    exact Environment.fallback_notMem_formatPattern hclean
      (Pattern.check_eq_ok_iff.1 (hpatterns _ hpattern)).1 herrors.2.2 text htext

theorem no_silent_fallback_greeting :
    greeting.validate = .ok () ∧
      ((Environment.standard .empty).formatToParts greeting).errors ≠ [] := by
  have hfallback : .fallback "\x7b$name\x7d" ∈
      ((Environment.standard .empty).formatToParts greeting).output := by
    rw [show ((Environment.standard .empty).formatToParts greeting).output =
      [.text "Hello ", .fallback "\x7b$name\x7d"] from rfl]
    exact List.mem_cons_of_mem _ (List.mem_singleton_self _)
  exact ⟨rfl, (no_silent_fallback (.standard .empty) (m := greeting) rfl).2.2 ⟨_, hfallback⟩⟩

/-- A message that is not valid may have a silent fallback. -/
example : ((Environment.standard .empty).formatToParts (.simple [.expression {}])).errors = [] :=
  rfl

end MessageFormat
