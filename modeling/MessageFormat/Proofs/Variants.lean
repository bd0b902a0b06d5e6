import Mathlib.Data.Fintype.EquivFin
import Mathlib.Data.String.Basic
import MessageFormat.Proofs.Dependence
import MessageFormat.Proofs.EraseDups
import MessageFormat.Proofs.Ranking

/-!
# Variants that are selected by text

A selector that is annotated with `:string` matches the keys that are equal to the text of its
value.  Such selectors can reach every variant of a valid matcher, and it does not matter in which
order the variants are written.

* `filter_columnKeys` : the keys of a column that are equal to a text are that text, or none;
* `Environment.SelectsText`, `Environment.matchKeys_eq_of_selectsText` : what such a selector matches;
* `Environment.TakesText`, `Environment.TakesText.exists_resolve` : selectors that take their text from
  the caller;
* `every_variant_chosen` : there are no dead variants;
* `variant_order_irrelevant` : the order of the variants changes nothing.
-/

namespace MessageFormat

/-! ### The keys of a column -/

theorem nodup_columnKeys (variants : List Variant) (column : Nat) :
    (columnKeys variants column).Nodup :=
  nodup_eraseDups _

theorem mem_columnKeys {variants : List Variant} {column : Nat} {text : String} :
    text ∈ columnKeys variants column ↔
      ∃ v ∈ variants, ∃ key, v.keys[column]? = some key ∧ key.text? = some text := by
  simp only [columnKeys, List.mem_eraseDups, List.mem_filterMap, Option.bind_eq_some_iff]

/-- The keys of a column that are equal to a text are that text, if it is one of them. -/
theorem filter_columnKeys (variants : List Variant) (column : Nat) (text : String) :
    (columnKeys variants column).filter (· == text) =
      if text ∈ columnKeys variants column then [text] else [] := by
  rw [List.filter_beq, (nodup_columnKeys variants column).count]
  split <;> rfl

theorem filter_columnKeys_perm {variants variants' : List Variant} (h : variants.Perm variants')
    (column : Nat) (text : String) : (columnKeys variants' column).filter (· == text) =
      (columnKeys variants column).filter (· == text) := by
  have hmem : text ∈ columnKeys variants' column ↔ text ∈ columnKeys variants column := by
    simp only [mem_columnKeys, h.mem_iff]
  simp only [filter_columnKeys, hmem]

/-! ### Selectors of text -/

/-- The expression is annotated with `:string`. -/
def Expression.CallsText (e : Expression) : Prop :=
  ∃ call, e.call? = some call ∧ call.identifier.text = "string"

namespace Environment

variable {env : Environment} {scope : Scope} {selector : Expression}

/-- Whatever the selector resolves to is called with the function for plain text. -/
def SelectsText (env : Environment) (scope : Scope) (selector : Expression) : Prop :=
  ∀ resolved, (env.resolve scope selector).output = .ok resolved →
    ∃ call, resolved.call = some call ∧ env.registry.find? call.name = some textFunction

/-- A selector of text matches the keys that are equal to the text of its value, if it resolves to
one, and reports no more than what resolving it does. -/
theorem matchKeys_eq_of_selectsText (h : env.SelectsText scope selector) (keys : List String) :
    env.matchKeys scope selector keys = (fun outcome => outcome.toOption.map fun resolved =>
      keys.filter (· == resolved.operandOrNull.text)) <$> env.resolve scope selector := by
  rw [matchKeys, map_eq_pure_bind]
  refine Resolution.bind_congr_output ?_
  cases hresolve : (env.resolve scope selector).output with
  | error text => rfl
  | ok resolved =>
    obtain ⟨call, hcall, hfunction⟩ := h resolved hresolve
    dsimp only
    rw [hcall, Option.bind_some, hfunction]
    rfl

/-- Selectors of text match the same in any order of the variants. -/
theorem matchSelectors_perm {selectors : List Expression} {variants variants' : List Variant}
    (h : ∀ selector ∈ selectors, env.SelectsText scope selector) (hperm : variants.Perm variants') :
    env.matchSelectors scope ⟨selectors, variants'⟩ =
      env.matchSelectors scope ⟨selectors, variants⟩ := by
  refine Resolution.mapM_congr fun ⟨selector, column⟩ hmem => ?_
  have hselector := h selector (List.fst_mem_of_mem_zipIdx hmem)
  dsimp only
  simp only [matchKeys_eq_of_selectsText hselector, filter_columnKeys_perm hperm]

/-- A selector that is annotated with `:string` is one of text. -/
theorem selectsText_of_callsText (hstring : env.registry.find? "string" = some textFunction)
    (h : selector.CallsText) (scope : Scope) : env.SelectsText scope selector := by
  obtain ⟨own, hown, hname⟩ := h
  intro resolved hresolve
  obtain ⟨operand, hdirective, -⟩ := exists_applyDirective_of_resolve hresolve
  rw [output_applyDirective_of_call hown] at hdirective
  split at hdirective
  · cases hdirective
    obtain ⟨call, hcall, hcallname⟩ := Resolved.exists_call_withCall own.identifier.text _ operand
    exact ⟨call, hcall, by rw [hcallname, hname, hstring]⟩
  · cases hdirective

end Environment

/-! ### Texts of the caller -/

/-- A declaration that binds a variable is the only one that does. -/
theorem Declaration.exists_split {declarations : List Declaration} {d : Declaration} {name : String}
    (hspares : declarations.Pairwise Declaration.Spares) (hd : d ∈ declarations)
    (hname : d.boundName? = some name) : ∃ front rear, declarations = front ++ d :: rear ∧
      (∀ other ∈ front, other.boundName? ≠ some name) ∧
        ∀ other ∈ rear, other.boundName? ≠ some name := by
  obtain ⟨front, rear, rfl⟩ := List.append_of_mem hd
  obtain ⟨-, hrear, hfront⟩ := List.pairwise_append.1 hspares
  refine ⟨front, rear, rfl, fun other hother => ?_, fun other hother heq => ?_⟩
  · exact (hfront other hother d List.mem_cons_self name hname).1
  · exact ((List.pairwise_cons.1 hrear).1 other hother name heq).1 hname

namespace Environment

variable {env : Environment} {scope : Scope} {selector : Expression}

/-- The function formats every text, whatever its options. -/
def FormatsTexts (env : Environment) (name : String) : Prop :=
  ∃ function, env.registry.find? name = some function ∧ ∀ text options, ∃ value,
    function.format (some (.string text)) options env.settings.locale = .ok value

/-- The selector takes its text from a variable of the caller, and is annotated with `:string`, where
it stands or where the variable is declared.  The variable need not be declared; if it is, then as an
input, and what else it is annotated with does not reject the text. -/
structure TakesText (env : Environment) (declarations : List Declaration) (name : String)
    (selector : Expression) : Prop where
  /-- The variable is the operand of the selector. -/
  operand : selector.variableName? = some name
  /-- The message does not make the variable itself. -/
  unassigned : ∀ d ∈ declarations, d.assignedName? ≠ some name
  /-- An input declaration of the variable has no function, or one that formats every text. -/
  accepted : ∀ e, .input e ∈ declarations → e.variableName? = some name →
    e.directive = none ∨ ∃ call, e.call? = some call ∧ env.FormatsTexts call.identifier.text
  /-- The selector or the declaration is annotated with `:string`. -/
  annotated : selector.CallsText ∨ selector.directive = none ∧
    ∃ e, .input e ∈ declarations ∧ e.variableName? = some name ∧ e.CallsText

/-- What is known of the variable is a text of the caller, with or without a call. -/
def KnowsText (env : Environment) (scope : Scope) (name text : String) (call : Option Call) : Prop :=
  env.known? scope name = some (.value ⟨some (.string text), call⟩)

/-- An expression with a function applies that to the text. -/
theorem KnowsText.exists_resolve_of_call {e : Expression} {name text : String} {call : Option Call}
    (h : env.KnowsText scope name text call) (hname : e.variableName? = some name)
    {own : FunctionCall} (hown : e.call? = some own)
    (hcontains : env.registry.contains own.identifier.text = true) : ∃ options,
      (env.resolve scope e).output =
        .ok ⟨some (.string text), some ⟨own.identifier.text, options⟩⟩ := by
  rw [output_resolve_of_known hname h, output_applyDirective_of_call hown, if_pos hcontains]
  exact ⟨_, rfl⟩

/-- An expression without a directive resolves to the text. -/
theorem KnowsText.resolve_of_directive {e : Expression} {name text : String} {call : Option Call}
    (h : env.KnowsText scope name text call) (hname : e.variableName? = some name)
    (hdirective : e.directive = none) :
    (env.resolve scope e).output = .ok ⟨some (.string text), call⟩ := by
  rw [output_resolve_of_known hname h, applyDirective, hdirective]
  rfl

/-- An input declaration of the variable binds it to the text. -/
theorem KnowsText.exists_find?_declare {e : Expression} {name text : String}
    (h : env.KnowsText scope name text none) (hname : e.variableName? = some name)
    (haccepted : e.directive = none ∨
      ∃ own, e.call? = some own ∧ env.FormatsTexts own.identifier.text) :
    ∃ call, (env.declare scope (.input e)).output.find? name =
        some (.value ⟨some (.string text), call⟩) ∧
      (e.CallsText → ∃ options, call = some ⟨"string", options⟩) := by
  have hbinding : (Declaration.input e).binding? = some (name, e) := by
    rw [Declaration.binding?, hname, Option.map_some]
  -- it is enough that the expression resolves to something that has a text
  have hfind : ∀ resolved, (env.resolve scope e).output = .ok resolved →
      (∃ shown, env.formatResolved resolved = .ok shown) →
        (env.declare scope (.input e)).output.find? name = some (.value resolved) := by
    rintro resolved hresolve ⟨shown, hshown⟩
    rw [declare_of_binding? hbinding, Resolution.output_map, NameMap.find?_insert_self, bindingOf,
      Resolution.output_bind, hresolve]
    dsimp only
    rw [hshown]
    rfl
  rcases haccepted with hdirective | ⟨own, hown, function, hfunction, htotal⟩
  · refine ⟨none, hfind _ (h.resolve_of_directive hname hdirective) ⟨_, rfl⟩, ?_⟩
    rintro ⟨own, hown, -⟩
    rw [Expression.call?, hdirective] at hown
    cases hown
  · have hcontains : env.registry.contains own.identifier.text = true := by
      rw [NameMap.contains, hfunction, Option.isSome_some]
    obtain ⟨options, hresolve⟩ := h.exists_resolve_of_call hname hown hcontains
    obtain ⟨value, hvalue⟩ := htotal text options
    refine ⟨_, hfind _ hresolve ⟨value.text, ?_⟩, ?_⟩
    · simp only [formatResolved, hfunction, hvalue]
      rfl
    · rintro ⟨_, hcalled, htext⟩
      obtain rfl := Option.some.inj (hown.symm.trans hcalled)
      exact ⟨options, by rw [htext]⟩

/-- Behind all declarations, the variable is known by its text; and if it is declared with
`:string`, it is called so. -/
theorem TakesText.exists_knowsText {declarations : List Declaration} {name text : String}
    (h : env.TakesText declarations name selector)
    (hspares : declarations.Pairwise Declaration.Spares)
    (hinput : env.input.find? name = some (.string text)) :
    ∃ call, env.KnowsText (declarations.foldlM env.declare .empty).output name text call ∧
      ∀ e, .input e ∈ declarations → e.variableName? = some name → e.CallsText →
        ∃ options, call = some ⟨"string", options⟩ := by
  -- as long as no declaration binds the variable, it has the value of the caller
  have hunbound : ∀ {front : List Declaration}, (∀ d ∈ front, d.boundName? ≠ some name) →
      env.KnowsText (front.foldlM env.declare .empty).output name text none := by
    intro front hfront
    rw [KnowsText, known?, find?_foldlM_declare_of_ne hfront, hinput]
    rfl
  by_cases hbound : ∃ d ∈ declarations, d.boundName? = some name
  · obtain ⟨d, hd, hname⟩ := hbound
    obtain ⟨front, rear, rfl, hfront, hrear⟩ := Declaration.exists_split hspares hd hname
    cases d with
    | assign _ e => exact absurd hname (h.unassigned _ hd)
    | reserved _ => cases hname
    | input e =>
      obtain ⟨call, hfind, hcall⟩ :=
        (hunbound hfront).exists_find?_declare hname (h.accepted e hd hname)
      refine ⟨call, ?_, fun other hother hothername hcalls => ?_⟩
      · rw [List.foldlM_append, Resolution.output_bind, List.foldlM_cons, Resolution.output_bind]
        refine known?_of_find? ?_
        rw [find?_foldlM_declare_of_ne hrear, hfind]
      · rcases List.mem_append.1 hother with hother | hother
        · exact absurd hothername (hfront _ hother)
        · rcases List.mem_cons.1 hother with heq | hother
          · cases heq
            exact hcall hcalls
          · exact absurd hothername (hrear _ hother)
  · have hne : ∀ d ∈ declarations, d.boundName? ≠ some name := fun d hd hname =>
      hbound ⟨d, hd, hname⟩
    exact ⟨none, hunbound hne, fun e he hname => absurd hname (hne _ he)⟩

/-- Behind all declarations, the selector resolves to the text of its variable, with a call of
`:string`. -/
theorem TakesText.exists_resolve {declarations : List Declaration} {name text : String}
    (h : env.TakesText declarations name selector)
    (hspares : declarations.Pairwise Declaration.Spares)
    (hstring : env.registry.find? "string" = some textFunction)
    (hinput : env.input.find? name = some (.string text)) : ∃ options,
      (env.resolve (declarations.foldlM env.declare .empty).output selector).output =
        .ok ⟨some (.string text), some ⟨"string", options⟩⟩ := by
  obtain ⟨call, hknows, hcall⟩ := h.exists_knowsText hspares hinput
  rcases h.annotated with ⟨own, hown, hname⟩ | ⟨hdirective, e, he, hname, hcalls⟩
  · have hcontains : env.registry.contains own.identifier.text = true := by
      rw [hname, NameMap.contains, hstring, Option.isSome_some]
    rw [← hname]
    exact hknows.exists_resolve_of_call h.operand hown hcontains
  · obtain ⟨options, rfl⟩ := hcall e he hname hcalls
    exact ⟨options, hknows.resolve_of_directive h.operand hdirective⟩

/-- So it matches the keys that are equal to the text. -/
theorem TakesText.output_matchKeys {declarations : List Declaration} {name text : String}
    (h : env.TakesText declarations name selector)
    (hspares : declarations.Pairwise Declaration.Spares)
    (hstring : env.registry.find? "string" = some textFunction)
    (hinput : env.input.find? name = some (.string text)) (keys : List String) :
    (env.matchKeys (declarations.foldlM env.declare .empty).output selector keys).output =
      some (keys.filter (· == text)) := by
  obtain ⟨options, hresolve⟩ := h.exists_resolve hspares hstring hinput
  have hselects : env.SelectsText (declarations.foldlM env.declare .empty).output selector := by
    intro resolved hresolved
    cases hresolve.symm.trans hresolved
    exact ⟨_, rfl, hstring⟩
  rw [matchKeys_eq_of_selectsText hselects, Resolution.output_map, hresolve]
  rfl

end Environment

/-! ### Inputs for a variant -/

/-- The input binds the variables so as to pick the variant: each to the literal of the variant in
its column, or to a text that is no key of the column if the key of the variant matches always. -/
def NameMap.Picks (input : NameMap Value) (variants : List Variant) (v : Variant)
    (names : List String) : Prop :=
  ∀ column name key, names[column]? = some name → v.keys[column]? = some key →
    ∃ text, input.find? name = some (.string text) ∧
      (key.text? = some text ∨ key = .catchAll ∧ text ∉ columnKeys variants column)

/-- There is a text that is no key of any column. -/
theorem exists_notMem_columnKeys (variants : List Variant) :
    ∃ text, ∀ column, text ∉ columnKeys variants column := by
  obtain ⟨text, htext⟩ := Infinite.exists_notMem_finset
    (variants.flatMap fun v => v.keys.filterMap VariantKey.text?).toFinset
  refine ⟨text, fun column hmem => htext ?_⟩
  obtain ⟨v, hv, key, hkey, hkeytext⟩ := mem_columnKeys.1 hmem
  rw [List.mem_toFinset, List.mem_flatMap]
  exact ⟨v, hv, List.mem_filterMap.2 ⟨key, List.mem_of_getElem? hkey, hkeytext⟩⟩

/-- Different variables can be bound so as to pick a variant. -/
theorem NameMap.exists_picks (variants : List Variant) (v : Variant) {names : List String}
    (hnames : names.Nodup) (hlength : v.keys.length = names.length) :
    ∃ input : NameMap Value, input.Picks variants v names := by
  obtain ⟨other, hother⟩ := exists_notMem_columnKeys variants
  let texts := v.keys.map fun key => key.text?.getD other
  let entries := names.zip (texts.map Value.string)
  have hentries : entries.map (·.1) = names := List.map_fst_zip (by simp [texts, hlength])
  refine ⟨.ofList entries, fun column name key hname hkey => ⟨key.text?.getD other, ?_, ?_⟩⟩
  · refine find?_ofList_of_mem (hentries ▸ hnames) (List.mem_iff_getElem?.2 ⟨column, ?_⟩)
    simp [entries, texts, List.getElem?_zip_eq_some, hname, hkey]
  · cases key with
    | literal l => exact .inl rfl
    | catchAll => exact .inr ⟨rfl, hother column⟩

/-- Selectors of text match just the keys of the variant that the input picks. -/
theorem Environment.output_matchSelectors_of_picks {env : Environment}
    {declarations : List Declaration} {m : Matcher} {names : List String} {v : Variant}
    (hspares : declarations.Pairwise Declaration.Spares)
    (hstring : env.registry.find? "string" = some textFunction)
    (htakes : List.Forall₂ (env.TakesText declarations) names m.selectors)
    (hv : v ∈ m.variants) (hkeyed : v.keys.length = m.selectors.length)
    (hpicks : env.input.Picks m.variants v names) :
    (env.matchSelectors (declarations.foldlM env.declare .empty).output m).output =
      v.soleMatches := by
  rw [matchSelectors, Resolution.output_mapM, Variant.soleMatches]
  refine List.ext_getElem (by simp [hkeyed]) fun column hlt hlt' => ?_
  rw [List.length_map, List.length_zipIdx] at hlt
  rw [List.length_map] at hlt'
  have hltnames : column < names.length := htakes.length_eq ▸ hlt
  obtain ⟨text, hinput, hpicked⟩ := hpicks column _ _ (List.getElem?_eq_getElem hltnames)
    (List.getElem?_eq_getElem hlt')
  have hselector := (List.forall₂_iff_get.1 htakes).2 column hltnames hlt
  simp only [List.get_eq_getElem] at hselector
  simp only [List.getElem_map, List.getElem_zipIdx, Nat.zero_add]
  rw [hselector.output_matchKeys hspares hstring hinput, filter_columnKeys]
  rcases hpicked with hliteral | ⟨hcatchAll, hnone⟩
  · rw [if_pos (mem_columnKeys.2 ⟨v, hv, _, List.getElem?_eq_getElem hlt', hliteral⟩), hliteral]
    rfl
  · rw [if_neg hnone, hcatchAll]
    rfl

/-- The message chooses the variant that its input picks. -/
theorem Environment.chosen?_of_picks {env : Environment} {declarations : List Declaration}
    {m : Matcher} {names : List String} {i : Nat} {v : Variant}
    (hvalid : (Message.complex declarations (.matcher m)).validate = .ok ())
    (hstring : env.registry.find? "string" = some textFunction)
    (htakes : List.Forall₂ (env.TakesText declarations) names m.selectors)
    (hv : m.variants[i]? = some v) (hpicks : env.input.Picks m.variants v names) :
    env.chosen? (.complex declarations (.matcher m)) = some i ∧
      env.patternOf (.complex declarations (.matcher m)) = v.pattern := by
  have hmatcher : m.Valid := Message.forall_matcher_valid hvalid m rfl
  have hmem := List.mem_of_getElem? hv
  have hmatched := output_matchSelectors_of_picks (Message.validate_eq_ok_iff.1 hvalid).1.2 hstring
    htakes hmem (hmatcher.keyed v hmem) hpicks
  have hchosen : env.chosen? (.complex declarations (.matcher m)) = some i :=
    (congrArg (bestVariant m.variants) hmatched).trans
      (bestVariant_soleMatches hmatcher.distinct hv)
  obtain ⟨position, w, hposition, hw, hpattern⟩ := env.exists_chosen?
    (m := .complex declarations (.matcher m)) rfl hmatcher
  obtain rfl : position = i := Option.some.inj (hposition.symm.trans hchosen)
  obtain rfl : w = v := Option.some.inj (hw.symm.trans hv)
  exact ⟨hchosen, hpattern⟩

/-- **There are no dead variants.**  Every variant is the best where its own keys are matched; and if
the selectors are annotated with `:string` and take their texts from different variables of the
caller, then it is chosen for every input that binds them to its keys, of which there is one. -/
theorem every_variant_chosen :
    (∀ variants : List Variant, (variants.map Variant.keyTexts).Nodup → ∀ i v,
      variants[i]? = some v → bestVariant variants v.soleMatches = some i) ∧
    ∀ (env : Environment) (declarations : List Declaration) (m : Matcher) (names : List String),
      (Message.complex declarations (.matcher m)).validate = .ok () →
      env.registry.find? "string" = some textFunction → names.Nodup →
      List.Forall₂ (env.TakesText declarations) names m.selectors → ∀ i v,
      m.variants[i]? = some v →
        (∀ input : NameMap Value, input.Picks m.variants v names →
          (env.withInput input).chosen? (.complex declarations (.matcher m)) = some i ∧
            (env.withInput input).patternOf (.complex declarations (.matcher m)) = v.pattern) ∧
        ∃ input : NameMap Value, input.Picks m.variants v names := by
  refine ⟨fun variants hdistinct i v hv => bestVariant_soleMatches hdistinct hv,
    fun env declarations m names hvalid hstring hnames htakes i v hv => ⟨fun input hpicks => ?_, ?_⟩⟩
  · -- whether a selector takes its text from the caller does not depend on the input
    have htakes' : List.Forall₂ ((env.withInput input).TakesText declarations) names m.selectors :=
      htakes.imp fun _ _ h => ⟨h.operand, h.unassigned, h.accepted, h.annotated⟩
    exact Environment.chosen?_of_picks hvalid hstring htakes' hv hpicks
  · have hkeyed := (Message.forall_matcher_valid hvalid m rfl).keyed v (List.mem_of_getElem? hv)
    exact NameMap.exists_picks m.variants v hnames (hkeyed.trans htakes.length_eq.symm)

/-- The expression `{$user :string}`, and likewise for any variable. -/
def textOf (name : String) : Expression where
  operand := some (.variableName name)
  directive := some (.function ⟨⟨none, "string"⟩, []⟩)

/-- Variants for two selectors, one of which may match always where the other does not. -/
def letterVariants : List Variant :=
  [⟨[.catchAll, .catchAll], [.text "Hello"]⟩,
    ⟨[.literal (.name "anna"), .catchAll], [.text "Dear Anna"]⟩,
    ⟨[.catchAll, .literal (.name "short")], [.text "Hi"]⟩,
    ⟨[.literal (.quoted "anna"), .literal (.quoted "short")], [.text "Hi Anna"]⟩]

/-- A message that selects by two texts. -/
def letter (variants : List Variant) : Message :=
  .complex [.input (textOf "user")] (.matcher ⟨[textOf "user", textOf "style"], variants⟩)

theorem every_variant_chosen_letter :
    (letter letterVariants).validate = .ok () ∧ ∀ i v, letterVariants[i]? = some v →
      bestVariant letterVariants v.soleMatches = some i ∧
        ∃ input, (greetingEnvironment.withInput input).chosen? (letter letterVariants) = some i := by
  have hformats : greetingEnvironment.FormatsTexts "string" :=
    ⟨textFunction, rfl, fun _ _ => ⟨_, rfl⟩⟩
  have htakes : ∀ name, greetingEnvironment.TakesText [.input (textOf "user")] name (textOf name) :=
    fun name =>
      { operand := rfl
        unassigned := by simp [Declaration.assignedName?]
        accepted := fun e he _ => by
          obtain rfl := Declaration.input.inj (List.mem_singleton.1 he)
          exact .inr ⟨_, rfl, hformats⟩
        annotated := .inl ⟨_, rfl, rfl⟩ }
  obtain ⟨hbest, hchosen⟩ := every_variant_chosen
  refine ⟨rfl, fun i v hv => ⟨hbest letterVariants (by decide) i v hv, ?_⟩⟩
  obtain ⟨hpicked, input, hpicks⟩ := hchosen greetingEnvironment [.input (textOf "user")]
    ⟨[textOf "user", textOf "style"], letterVariants⟩ ["user", "style"] rfl rfl (by decide)
    (.cons (htakes "user") (.cons (htakes "style") .nil)) i v hv
  exact ⟨input, (hpicked input hpicks).1⟩

/-! ### The order of the variants -/

theorem Matcher.Valid.perm {selectors : List Expression} {variants variants' : List Variant}
    (h : Matcher.Valid ⟨selectors, variants⟩) (hperm : variants.Perm variants') :
    Matcher.Valid ⟨selectors, variants'⟩ where
  selected := h.selected
  varied := fun hnil => h.varied (hperm.trans (.of_eq hnil)).eq_nil
  keyed := fun v hv => h.keyed v (hperm.mem_iff.2 hv)
  fallback := h.fallback.imp fun _ hv => hv.imp_left hperm.mem_iff.1
  distinct := (hperm.map _).nodup_iff.1 h.distinct

/-- Selectors of text choose the same pattern in any order of the variants, with the same errors. -/
theorem Environment.choose_perm {env : Environment} {scope : Scope} {selectors : List Expression}
    {variants variants' : List Variant} (hvalid : Matcher.Valid ⟨selectors, variants⟩)
    (hperm : variants.Perm variants')
    (hselects : ∀ selector ∈ selectors, env.SelectsText scope selector) :
    env.choose scope ⟨selectors, variants'⟩ = env.choose scope ⟨selectors, variants⟩ := by
  obtain ⟨position, v, hbest, hv, hchoose⟩ := env.choose_eq hvalid scope
  obtain ⟨position', v', hbest', hv', hchoose'⟩ := env.choose_eq (hvalid.perm hperm) scope
  have hmatched := matchSelectors_perm hselects hperm
  have heq : some v' = some v :=
    calc some v'
      _ = (bestVariant variants' (env.matchSelectors scope ⟨selectors, variants'⟩).output).bind
            (variants'[·]?) := by rw [hbest', Option.bind_some, hv']
      _ = (bestVariant variants (env.matchSelectors scope ⟨selectors, variants⟩).output).bind
            (variants[·]?) := by rw [hmatched, bind_bestVariant_perm hvalid.distinct hperm]
      _ = some v := by rw [hbest, Option.bind_some, hv]
  rw [hchoose, hchoose', hmatched, Option.some.inj heq]

/-- **The order of the variants changes nothing.**  The best variant is the same in any order, as no
two variants have the same rank; and a valid message whose selectors are of text is formatted to the
same output with the same errors. -/
theorem variant_order_irrelevant :
    (∀ variants variants' : List Variant, (variants.map Variant.keyTexts).Nodup →
      variants.Perm variants' → ∀ matched,
        (bestVariant variants' matched).bind (variants'[·]?) =
            (bestVariant variants matched).bind (variants[·]?) ∧
          ∀ (i j : Nat) (v w : Variant) (rank : List Nat), variants[i]? = some v →
            variants[j]? = some w → v.rank? matched = some rank → w.rank? matched = some rank →
              i = j) ∧
    ∀ (env : Environment) (declarations : List Declaration) (selectors : List Expression)
      (variants variants' : List Variant),
      (Message.complex declarations (.matcher ⟨selectors, variants⟩)).validate = .ok () →
      variants.Perm variants' →
      (∀ selector ∈ selectors, env.SelectsText
        (env.scopeOf (.complex declarations (.matcher ⟨selectors, variants⟩))) selector) →
      env.formatToParts (.complex declarations (.matcher ⟨selectors, variants'⟩)) =
          env.formatToParts (.complex declarations (.matcher ⟨selectors, variants⟩)) ∧
        env.format (.complex declarations (.matcher ⟨selectors, variants'⟩)) =
          env.format (.complex declarations (.matcher ⟨selectors, variants⟩)) := by
  refine ⟨fun variants variants' hdistinct hperm matched =>
    ⟨bind_bestVariant_perm hdistinct hperm matched, fun i j v w rank hv hw hrank hrank' =>
      position_eq_of_rank? hdistinct hv hw hrank hrank'⟩, ?_⟩
  intro env declarations selectors variants variants' hvalid hperm hselects
  have hchoose := Environment.choose_perm (Message.forall_matcher_valid hvalid _ rfl) hperm hselects
  have hparts : env.formatToParts (.complex declarations (.matcher ⟨selectors, variants'⟩)) =
      env.formatToParts (.complex declarations (.matcher ⟨selectors, variants⟩)) := by
    rw [env.formatToParts_eq, env.formatToParts_eq]
    refine Resolution.bind_congr_output ?_
    exact congrArg (· >>= env.formatPattern _) hchoose
  exact ⟨hparts, by rw [Environment.format, Environment.format, hparts]⟩

theorem variant_order_irrelevant_letter :
    (letter letterVariants).validate = .ok () ∧
      bestVariant letterVariants.reverse [some ["anna"], none] ≠
        bestVariant letterVariants [some ["anna"], none] ∧
      (bestVariant letterVariants.reverse [some ["anna"], none]).bind (letterVariants.reverse[·]?) =
        (bestVariant letterVariants [some ["anna"], none]).bind (letterVariants[·]?) ∧
      ∀ input, (greetingEnvironment.withInput input).formatToParts (letter letterVariants.reverse) =
        (greetingEnvironment.withInput input).formatToParts (letter letterVariants) := by
  obtain ⟨hbest, hformat⟩ := variant_order_irrelevant
  have hperm : letterVariants.Perm letterVariants.reverse := (List.reverse_perm _).symm
  refine ⟨rfl, by decide, (hbest _ _ (by decide) hperm _).1, fun input => ?_⟩
  refine (hformat _ _ _ _ _ rfl hperm ?_).1
  intro selector hselector
  refine Environment.selectsText_of_callsText rfl ?_ _
  obtain rfl | rfl : selector = textOf "user" ∨ selector = textOf "style" := by simpa using hselector
  · exact ⟨_, rfl, rfl⟩
  · exact ⟨_, rfl, rfl⟩

end MessageFormat
