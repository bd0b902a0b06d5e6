import MessageFormat.Proofs.Fallbacks

/-!
# Inlining a variable

A variable that the message makes itself stands for the expression that it is made from.  Where a
run reports no error, the expression may be written in the stead of a reference to the variable: it
resolves to the same value behind all declarations as it did where the variable was made, because no
declaration in between binds what it reads.

* `Environment.Binds` : a variable is bound to what an expression resolves to;
* `Environment.exists_binds_foldlM_declare` : behind a run without errors, this holds of every variable
  that the message makes;
* `formatToParts_inlined` : inlining a variable changes nothing.
-/

namespace MessageFormat

/-! ### References and what takes their place -/

/-- The expression is the variable and nothing else; attributes do not count. -/
def Expression.RefersTo (e : Expression) (name : String) : Prop :=
  e.operand = some (.variableName name) ∧ e.directive = none

/-- The second expression is the first, or the value of the variable that the first refers to. -/
inductive Expression.Inlined (name : String) (value : Expression) : Expression → Expression → Prop
    where
  /-- Any expression may stay as it is. -/
  | same (e : Expression) : Inlined name value e e
  /-- A reference may be replaced. -/
  | reference {e : Expression} (h : e.RefersTo name) : Inlined name value e value

/-- The same for the parts of a pattern. -/
inductive PatternPart.Inlined (name : String) (value : Expression) :
    PatternPart → PatternPart → Prop where
  /-- Any part may stay as it is. -/
  | same (part : PatternPart) : Inlined name value part part
  /-- A placeholder that is a reference may be replaced. -/
  | expression {e e' : Expression} (h : Expression.Inlined name value e e') :
    Inlined name value (.expression e) (.expression e')

/-- The same for each part of a pattern. -/
def Pattern.Inlined (name : String) (value : Expression) : Pattern → Pattern → Prop :=
  List.Forall₂ (PatternPart.Inlined name value)

/-- The same for the pattern of a variant. -/
structure Variant.Inlined (name : String) (value : Expression) (v v' : Variant) : Prop where
  /-- The keys stay. -/
  keys : v'.keys = v.keys
  /-- The pattern may change. -/
  pattern : Pattern.Inlined name value v.pattern v'.pattern

/-- The same for each selector and each variant of a matcher. -/
structure Matcher.Inlined (name : String) (value : Expression) (m m' : Matcher) : Prop where
  /-- The selectors may change. -/
  selectors : List.Forall₂ (Expression.Inlined name value) m.selectors m'.selectors
  /-- The variants may change. -/
  variants : List.Forall₂ (Variant.Inlined name value) m.variants m'.variants

/-- The same for the body of a message. -/
inductive MessageBody.Inlined (name : String) (value : Expression) :
    MessageBody → MessageBody → Prop where
  /-- The pattern may change. -/
  | pattern {p p' : Pattern} (h : Pattern.Inlined name value p p') :
    Inlined name value (.pattern p) (.pattern p')
  /-- The matcher may change. -/
  | matcher {m m' : Matcher} (h : Matcher.Inlined name value m m') :
    Inlined name value (.matcher m) (.matcher m')

namespace Matcher.Inlined

variable {name : String} {value : Expression} {m m' : Matcher}

theorem map_keys (h : Matcher.Inlined name value m m') :
    m'.variants.map (·.keys) = m.variants.map (·.keys) := by
  have hvariants := h.variants
  generalize m.variants = variants, m'.variants = variants' at hvariants
  induction hvariants with
  | nil => rfl
  | cons hv _ ih => rw [List.map_cons, List.map_cons, hv.keys, ih]

theorem exists_getElem? (h : Matcher.Inlined name value m m') {position : Nat} {v : Variant}
    (hv : m.variants[position]? = some v) :
    ∃ v', m'.variants[position]? = some v' ∧ Variant.Inlined name value v v' := by
  obtain ⟨hlength, hall⟩ := List.forall₂_iff_get.1 h.variants
  obtain ⟨hlt, rfl⟩ := List.getElem?_eq_some_iff.1 hv
  exact ⟨_, List.getElem?_eq_getElem (hlength ▸ hlt), hall position hlt (hlength ▸ hlt)⟩

end Matcher.Inlined

namespace Environment

variable {env : Environment} {scope : Scope} {name : String} {value : Expression}

/-! ### What a variable is bound to -/

/-- The variable is bound to what the expression resolves to, which can be formatted. -/
structure Binds (env : Environment) (scope : Scope) (name : String) (value : Expression)
    (resolved : Resolved) : Prop where
  /-- The variable is bound to a value. -/
  find?_eq : scope.find? name = some (.value resolved)
  /-- The expression resolves to that value without an error. -/
  resolve_eq : env.resolve scope value = pure (.ok resolved)
  /-- The value can be formatted. -/
  exists_text : ∃ text, env.formatResolved resolved = .ok text

/-- Later declarations do not change what is known of a variable that an expression reads. -/
theorem known?_foldlM_declare {d : Declaration} {e : Expression} {read : String}
    (he : e ∈ d.expressions) (hread : read ∈ e.reads) {declarations : List Declaration}
    (hspares : ∀ later ∈ declarations, d.Spares later) :
    env.known? (declarations.foldlM env.declare scope).output read = env.known? scope read := by
  rw [known?, known?, find?_foldlM_declare_of_ne fun later hlater hbound =>
    (hspares later hlater read hbound).2 e he hread]

/-- Declarations that bind neither the variable nor anything that the expression reads do not change
what the one is bound to and the other resolves to. -/
theorem Binds.foldlM_declare {resolved : Resolved} (h : env.Binds scope name value resolved)
    {declarations : List Declaration}
    (hspares : ∀ d ∈ declarations, (Declaration.assign name value).Spares d) :
    env.Binds (declarations.foldlM env.declare scope).output name value resolved where
  find?_eq := by
    rw [find?_foldlM_declare_of_ne fun d hd hbound => (hspares d hd name hbound).1 rfl]
    exact h.find?_eq
  resolve_eq := by
    rw [← h.resolve_eq]
    exact resolve_congr (fun read hread =>
      known?_foldlM_declare (List.mem_singleton_self value) hread hspares) fun _ _ => rfl
  exists_text := h.exists_text

/-- Behind the declaration that makes it, a variable is bound to what its expression resolves to. -/
theorem exists_binds_declare (hclean : scope.IsClean)
    (hsound : (Declaration.assign name value).IsSound)
    (h : (env.declare scope (.assign name value)).errors = []) :
    ∃ resolved, env.Binds (env.declare scope (.assign name value)).output name value resolved := by
  have hdeclare : env.declare scope (.assign name value) =
      (scope.insert name ·) <$> env.bindingOf scope name value :=
    declare_of_binding? rfl
  have hfilled := (hsound.sound value (List.mem_singleton_self value)).filled
  rw [hdeclare, bindingOf_eq] at h ⊢
  rw [Resolution.errors_map, Resolution.errors_map] at h
  obtain ⟨resolved, text, hresolve, htext, hevaluate⟩ := exists_evaluate_eq hclean hfilled h
  rw [hevaluate]
  refine ⟨resolved, NameMap.find?_insert_self scope name _, ?_, text, htext⟩
  rw [← hresolve]
  refine resolve_congr (fun read hread => ?_) fun _ _ => rfl
  have hne : read ≠ name := by
    rintro rfl
    exact hsound.unread read value rfl hread
  rw [known?, known?, map_pure, map_pure, Resolution.output_pure,
    NameMap.find?_insert_of_ne _ _ hne]

/-- Behind declarations without errors, every variable that they make is bound to what its
expression resolves to there. -/
theorem exists_binds_foldlM_declare {declarations : List Declaration}
    (hsound : ∀ d ∈ declarations, d.IsSound) (hspares : declarations.Pairwise Declaration.Spares)
    (h : (env.declareAll declarations).errors = []) (hmem : .assign name value ∈ declarations) :
    ∃ resolved, env.Binds (env.declareAll declarations).output name value resolved := by
  obtain ⟨before, behind, rfl⟩ := List.append_of_mem hmem
  rw [declareAll, List.foldlM_append] at h ⊢
  obtain ⟨hbefore, hrest⟩ := Resolution.errors_bind_eq_nil_iff.1 h
  rw [List.foldlM_cons] at hrest
  obtain ⟨hassign, -⟩ := Resolution.errors_bind_eq_nil_iff.1 hrest
  have hclean := isClean_foldlM_declare Scope.isClean_empty
    (fun d hd => hsound d (List.mem_append_left _ hd)) hbefore
  obtain ⟨resolved, hbinds⟩ := exists_binds_declare hclean (hsound _ hmem) hassign
  have hbehind := (List.pairwise_cons.1 (List.pairwise_append.1 hspares).2.1).1
  exact ⟨resolved, hbinds.foldlM_declare hbehind⟩

/-! ### Expressions -/

/-- A reference resolves to what its variable is bound to. -/
theorem resolve_of_refersTo {e : Expression} {resolved : Resolved} (h : e.RefersTo name)
    (hname : scope.find? name = some (.value resolved)) :
    env.resolve scope e = pure (.ok resolved) := by
  rw [resolve_of_operand_eq_some h.1, resolveOperand, lookUp_eq, known?_of_find? hname, pure_bind]
  simp only [applyDirective, h.2, Option.elim_some]

variable {resolved : Resolved} (hbinds : env.Binds scope name value resolved)
include hbinds

theorem evaluate_inlined {e e' : Expression} (h : Expression.Inlined name value e e') :
    env.evaluate scope e' = env.evaluate scope e := by
  cases h with
  | same => rfl
  | reference h =>
    obtain ⟨text, htext⟩ := hbinds.exists_text
    simp only [evaluate, resolve_of_refersTo h hbinds.find?_eq, hbinds.resolve_eq, pure_bind,
      htext]

theorem formatPart_inlined {part part' : PatternPart} (h : PatternPart.Inlined name value part part') :
    env.formatPart scope part' = env.formatPart scope part := by
  cases h with
  | same => rfl
  | expression h =>
    rw [formatPart, formatPart, formatExpression_eq, formatExpression_eq,
      evaluate_inlined hbinds h]

theorem formatPattern_inlined {pattern pattern' : Pattern}
    (h : Pattern.Inlined name value pattern pattern') :
    env.formatPattern scope pattern' = env.formatPattern scope pattern := by
  unfold formatPattern
  induction h with
  | nil => rfl
  | cons hpart _ ih => rw [List.mapM_cons, List.mapM_cons, formatPart_inlined hbinds hpart, ih]

/-! ### Selectors and variants -/

theorem matchKeys_inlined {e e' : Expression} (h : Expression.Inlined name value e e')
    {keys : List String} (hclean : (env.matchKeys scope e keys).errors = []) :
    env.matchKeys scope e' keys = env.matchKeys scope e keys := by
  cases h with
  | same => rfl
  | reference h =>
    simp only [matchKeys, resolve_of_refersTo h hbinds.find?_eq, hbinds.resolve_eq,
      pure_bind] at hclean ⊢
    -- only the errors name the selector
    split at hclean
    · simp at hclean
    · split at hclean
      · rfl
      · simp at hclean

/-- The selectors of a matcher, with the number of the first one and the keys of each column. -/
theorem mapM_matchKeys_inlined {selectors selectors' : List Expression}
    (h : List.Forall₂ (Expression.Inlined name value) selectors selectors') {first : Nat}
    {keys : Nat → List String}
    (hclean : ((selectors.zipIdx first).mapM fun (selector, column) =>
      env.matchKeys scope selector (keys column)).errors = []) :
    ((selectors'.zipIdx first).mapM fun (selector, column) =>
        env.matchKeys scope selector (keys column)) =
      (selectors.zipIdx first).mapM fun (selector, column) =>
        env.matchKeys scope selector (keys column) := by
  induction h generalizing first with
  | nil => rfl
  | cons hselector _ ih =>
    simp only [List.zipIdx_cons, List.mapM_cons] at hclean ⊢
    obtain ⟨hfirst, hrest⟩ := Resolution.errors_bind_eq_nil_iff.1 hclean
    rw [matchKeys_inlined hbinds hselector hfirst,
      ih (Resolution.errors_bind_eq_nil_iff.1 hrest).1]

/-- Where the choice among the variants reports no error, the same one is chosen. -/
theorem exists_choose_inlined {m m' : Matcher} (h : Matcher.Inlined name value m m')
    (hclean : (env.choose scope m).errors = []) : ∃ pattern pattern',
      Pattern.Inlined name value pattern pattern' ∧ env.choose scope m = pure pattern ∧
        env.choose scope m' = pure pattern' := by
  have hkeys : m'.variants.map (·.keys) = m.variants.map (·.keys) := h.map_keys
  obtain ⟨hselectors, hbest⟩ := Resolution.errors_bind_eq_nil_iff.1 hclean
  have hmatched : env.matchSelectors scope m' = env.matchSelectors scope m := by
    rw [matchSelectors, matchSelectors]
    simp only [columnKeys_congr hkeys]
    exact mapM_matchKeys_inlined hbinds h.selectors hselectors
  rw [choose, choose, hmatched, Resolution.eq_pure_of_errors hselectors, pure_bind, pure_bind,
    bestVariant_congr hkeys]
  split at hbest
  · rename_i v hv
    obtain ⟨position, hposition, hv⟩ := Option.bind_eq_some_iff.1 hv
    obtain ⟨v', hv', hinlined⟩ := h.exists_getElem? hv
    refine ⟨v.pattern, v'.pattern, hinlined.pattern, ?_, ?_⟩
    · rfl
    · rw [hposition, Option.bind_some, hv']
  · simp at hbest

/-- The body of a message is formatted to the same parts, if this reports no error. -/
theorem formatBody_inlined {body body' : MessageBody} (h : MessageBody.Inlined name value body body')
    (hclean : (env.formatBody scope body).errors = []) :
    env.formatBody scope body' = env.formatBody scope body := by
  cases h with
  | pattern h => exact formatPattern_inlined hbinds h
  | matcher h =>
    obtain ⟨pattern, pattern', hpattern, hchoose, hchoose'⟩ := exists_choose_inlined hbinds h
      (Resolution.errors_bind_eq_nil_iff.1 hclean).1
    rw [formatBody, formatBody, hchoose, hchoose', pure_bind, pure_bind,
      formatPattern_inlined hbinds hpattern]

end Environment

/-- **A variable that the message makes is transparent.**  Where formatting a valid message reports
no error, any of the bare references to the variable, in the patterns and among the selectors, may be
replaced by the expression that it is made from: the parts, the text and the errors, of which there
are none, stay the same. -/
theorem formatToParts_inlined (env : Environment) {declarations : List Declaration}
    {body body' : MessageBody} {name : String} {value : Expression}
    (hvalid : (Message.complex declarations body).validate = .ok ())
    (hmem : .assign name value ∈ declarations)
    (hinlined : MessageBody.Inlined name value body body')
    (hclean : (env.formatToParts (.complex declarations body)).errors = []) :
    env.formatToParts (.complex declarations body') =
        env.formatToParts (.complex declarations body) ∧
      env.format (.complex declarations body') = env.format (.complex declarations body) := by
  obtain ⟨⟨hsound, hspares⟩, -, -⟩ := Message.validate_eq_ok_iff.1 hvalid
  obtain ⟨hdeclare, hbody⟩ := Resolution.errors_bind_eq_nil_iff.1 hclean
  obtain ⟨resolved, hbinds⟩ :=
    Environment.exists_binds_foldlM_declare hsound hspares hdeclare hmem
  have hparts : env.formatToParts (.complex declarations body') =
      env.formatToParts (.complex declarations body) := by
    rw [Environment.formatToParts, Environment.formatToParts]
    exact Resolution.bind_congr_output (Environment.formatBody_inlined hbinds hinlined hbody)
  exact ⟨hparts, congrArg (env.settings.join <$> ·) hparts⟩

theorem formatToParts_inlined_greeting :
    greeting.validate = .ok () ∧ (greetingEnvironment.formatToParts greeting).errors = [] ∧
      greetingEnvironment.format
          (.complex [.assign "name" greetedName] (greetingBody greetedName greetedName)) =
        greetingEnvironment.format greeting := by
  have hreference : nameReference.RefersTo "name" := ⟨rfl, rfl⟩
  have hinlined : MessageBody.Inlined "name" greetedName (greetingBody nameReference nameReference)
      (greetingBody greetedName greetedName) := by
    refine .matcher ⟨.cons (.reference hreference) .nil, ?_⟩
    refine .cons ⟨rfl, .cons (.same _) .nil⟩ (.cons ⟨rfl, ?_⟩ .nil)
    exact .cons (.same _) (.cons (.expression (.reference hreference)) .nil)
  have hclean : (greetingEnvironment.formatToParts greeting).errors = [] := by decide
  exact ⟨rfl, hclean, (formatToParts_inlined greetingEnvironment rfl (List.mem_singleton_self _)
    hinlined hclean).2⟩

end MessageFormat
