import MessageFormat.Formatting
import MessageFormat.Proofs.Validity

/-!
# Selection always succeeds

A message is formatted in three stages: its declarations are resolved, one of its patterns is
chosen, and the parts of that pattern are formatted.  In a valid message the choice cannot fail: the
variant that matches always is eligible whatever the selectors have matched.

* `bestVariant_eq_some` : the position of the best variant is that of an eligible one;
* `Matcher.Valid.exists_bestVariant` : a valid matcher has a best variant, whatever is matched;
* `Environment.formatToParts_eq` : the three stages;
* `Environment.choose_eq` : what a valid matcher chooses.
-/

namespace MessageFormat

/-! ### The best of some variants -/

theorem mem_of_firstLeast? {α : Type} {items : List (List Nat × α)} {item : List Nat × α}
    (h : firstLeast? items = some item) : item ∈ items := by
  induction items with
  | nil => cases h
  | cons first rest ih =>
    unfold firstLeast? at h
    split at h
    · cases h
      exact List.mem_cons_self
    · rename_i other hother
      split at h
      · exact List.mem_cons_of_mem first (ih (hother.trans h))
      · cases h
        exact List.mem_cons_self

theorem firstLeast?_eq_none_iff {α : Type} {items : List (List Nat × α)} :
    firstLeast? items = none ↔ items = [] := by
  cases items with
  | nil => simp [firstLeast?]
  | cons first rest =>
    unfold firstLeast?
    split <;> simp

/-- The best variant is one of the variants, and eligible. -/
theorem bestVariant_eq_some {variants : List Variant} {matched : List (Option (List String))}
    {position : Nat} (h : bestVariant variants matched = some position) :
    ∃ v, variants[position]? = some v ∧ (v.rank? matched).isSome = true := by
  obtain ⟨⟨rank, _⟩, hleast, rfl⟩ := Option.map_eq_some_iff.1 h
  obtain ⟨⟨v, place⟩, hv, hrank⟩ := List.mem_filterMap.1 (mem_of_firstLeast? hleast)
  obtain ⟨_, hv', hpair⟩ := Option.map_eq_some_iff.1 hrank
  cases hpair
  exact ⟨v, List.mem_zipIdx_iff_getElem?.1 hv, by simp [hv']⟩

theorem bestVariant_eq_none_iff {variants : List Variant}
    {matched : List (Option (List String))} :
    bestVariant variants matched = none ↔ ∀ v ∈ variants, v.rank? matched = none := by
  simp only [bestVariant, Option.map_eq_none_iff, firstLeast?_eq_none_iff,
    List.filterMap_eq_nil_iff]
  constructor
  · intro h v hv
    obtain ⟨position, hposition⟩ := List.mem_iff_getElem?.1 hv
    exact h (v, position) (List.mem_zipIdx_iff_getElem?.2 hposition)
  · rintro h ⟨v, position⟩ hv
    exact h v (List.mem_of_getElem? (List.mem_zipIdx_iff_getElem?.1 hv))

/-! ### What the choice depends on -/

/-- The choice depends on the keys of the variants, and not on their patterns. -/
theorem bestVariant_congr {variants variants' : List Variant}
    (h : variants.map (·.keys) = variants'.map (·.keys)) (matched : List (Option (List String))) :
    bestVariant variants matched = bestVariant variants' matched := by
  -- the rank of a variant is that of its keys without a pattern
  have hkeys : ∀ variants : List Variant, bestVariant variants matched =
      (firstLeast? ((variants.map (·.keys)).zipIdx.filterMap fun entry =>
        ((Variant.mk entry.1 []).rank? matched).map fun rank => (rank, entry.2))).map (·.2) := by
    intro variants
    rw [bestVariant, List.zipIdx_map, List.filterMap_map]
    rfl
  rw [hkeys, hkeys, h]

/-- So do the keys that a selector is asked about. -/
theorem columnKeys_congr {variants variants' : List Variant}
    (h : variants.map (·.keys) = variants'.map (·.keys)) (column : Nat) :
    columnKeys variants column = columnKeys variants' column := by
  have hkeys : ∀ variants : List Variant,
      (variants.filterMap fun v => v.keys[column]?.bind VariantKey.text?) =
      (variants.map (·.keys)).filterMap fun keys => keys[column]?.bind VariantKey.text? := by
    intro variants
    rw [List.filterMap_map]
    rfl
  rw [columnKeys, columnKeys, hkeys, hkeys, h]

/-! ### Catch-all keys -/

theorem isSome_mapM_place?_of_catchAll {keys : List VariantKey}
    (hkeys : ∀ key ∈ keys, key = .catchAll) (matched : List (Option (List String))) :
    ((matched.zipWith VariantKey.place? keys).mapM id).isSome = true := by
  induction keys generalizing matched with
  | nil => simp
  | cons key keys ih =>
    obtain ⟨rfl, hrest⟩ := List.forall_mem_cons.1 hkeys
    cases matched with
    | nil => rfl
    | cons first rest =>
      obtain ⟨places, hplaces⟩ := Option.isSome_iff_exists.1 (ih hrest rest)
      simp [VariantKey.place?, hplaces]

/-- A variant of catch-all keys is eligible, whatever is matched. -/
theorem Variant.isSome_rank?_of_catchAll {v : Variant} {matched : List (Option (List String))}
    (hlength : v.keys.length = matched.length) (hkeys : ∀ key ∈ v.keys, key = .catchAll) :
    (v.rank? matched).isSome = true := by
  rw [rank?, if_pos hlength, Option.isSome_map]
  exact isSome_mapM_place?_of_catchAll hkeys matched

/-- **A valid matcher has a best variant**, whatever its selectors match or fail to match. -/
theorem Matcher.Valid.exists_bestVariant {m : Matcher} (h : m.Valid)
    {matched : List (Option (List String))} (hlength : matched.length = m.selectors.length) :
    ∃ position v, bestVariant m.variants matched = some position ∧
      m.variants[position]? = some v := by
  obtain ⟨fallback, hfallback, hkeys⟩ := h.fallback
  cases hbest : bestVariant m.variants matched with
  | none =>
    have hnone := bestVariant_eq_none_iff.1 hbest fallback hfallback
    have hsome := Variant.isSome_rank?_of_catchAll
      ((h.keyed fallback hfallback).trans hlength.symm) hkeys
    rw [hnone] at hsome
    cases hsome
  | some position =>
    obtain ⟨v, hv, -⟩ := bestVariant_eq_some hbest
    exact ⟨position, v, rfl, hv⟩

theorem Message.forall_matcher_valid {m : Message} (h : m.validate = .ok ()) :
    ∀ matcher ∈ m.matcher?, matcher.Valid :=
  fun matcher hm => ((Message.validate_eq_ok_iff.1 h).2.1 matcher hm).1

/-! ### The stages of formatting -/

namespace Environment

variable (env : Environment)

/-- The pattern of a message that is formatted, with the errors of choosing it. -/
def choosePattern (scope : Scope) : Message → Resolution Pattern
  | .simple pattern | .complex _ (.pattern pattern) => pure pattern
  | .complex _ (.matcher m) => env.choose scope m

/-- The scope that the body of a message is formatted in. -/
def scopeOf (m : Message) : Scope := (env.declareAll m.declarations).output

/-- The pattern of a message that is formatted. -/
def patternOf (m : Message) : Pattern := (env.choosePattern (env.scopeOf m) m).output

/-- The position of the variant that a message with a matcher chooses. -/
def chosen? (m : Message) : Option Nat :=
  m.matcher?.bind fun matcher =>
    bestVariant matcher.variants (env.matchSelectors (env.scopeOf m) matcher).output

/-- A message is formatted in three stages. -/
theorem formatToParts_eq (m : Message) : env.formatToParts m = (do
    let scope ← env.declareAll m.declarations
    let pattern ← env.choosePattern scope m
    env.formatPattern scope pattern) := by
  cases m with
  | simple pattern => simp [formatToParts, Message.declarations, declareAll, choosePattern]
  | complex declarations body =>
    cases body <;> simp [formatToParts, Message.declarations, formatBody, choosePattern]

theorem output_formatToParts (m : Message) :
    (env.formatToParts m).output = (env.formatPattern (env.scopeOf m) (env.patternOf m)).output := by
  rw [formatToParts_eq]
  rfl

/-- The errors of a message are those of its three stages. -/
theorem errors_formatToParts (m : Message) : (env.formatToParts m).errors =
    (env.declareAll m.declarations).errors ++ ((env.choosePattern (env.scopeOf m) m).errors ++
      (env.formatPattern (env.scopeOf m) (env.patternOf m)).errors) := by
  rw [formatToParts_eq]
  rfl

/-! ### What is chosen -/

theorem length_matchSelectors (scope : Scope) (m : Matcher) :
    (env.matchSelectors scope m).output.length = m.selectors.length := by
  simp [matchSelectors, Resolution.output_mapM]

/-- A valid matcher chooses the pattern of its best variant, and reports no more than what its
selectors do. -/
theorem choose_eq {m : Matcher} (h : m.Valid) (scope : Scope) : ∃ position v,
    bestVariant m.variants (env.matchSelectors scope m).output = some position ∧
      m.variants[position]? = some v ∧
        env.choose scope m = (fun _ => v.pattern) <$> env.matchSelectors scope m := by
  obtain ⟨position, v, hbest, hv⟩ := h.exists_bestVariant (env.length_matchSelectors scope m)
  refine ⟨position, v, hbest, hv, ?_⟩
  ext1 <;> simp [choose, hbest, hv]

/-- A message with a valid matcher chooses one of its variants, and formats the pattern of that. -/
theorem exists_chosen? {m : Message} {matcher : Matcher} (hm : matcher ∈ m.matcher?)
    (h : matcher.Valid) : ∃ position v, env.chosen? m = some position ∧
      matcher.variants[position]? = some v ∧ env.patternOf m = v.pattern := by
  obtain ⟨declarations, rfl⟩ : ∃ declarations, m = .complex declarations (.matcher matcher) := by
    cases m with
    | simple => cases hm
    | complex declarations body =>
      cases body with
      | pattern => cases hm
      | matcher _ =>
        cases hm
        exact ⟨declarations, rfl⟩
  obtain ⟨position, v, hbest, hv, hchoose⟩ :=
    env.choose_eq h (env.scopeOf (.complex declarations (.matcher matcher)))
  exact ⟨position, v, hbest, hv, by rw [patternOf, choosePattern, hchoose]; rfl⟩

/-- The pattern that a valid message chooses is one of its own. -/
theorem patternOf_mem_patterns {m : Message} (h : ∀ matcher ∈ m.matcher?, matcher.Valid) :
    env.patternOf m ∈ m.patterns := by
  cases m with
  | simple pattern => exact List.mem_singleton_self pattern
  | complex declarations body =>
    cases body with
    | pattern pattern => exact List.mem_singleton_self pattern
    | matcher matcher =>
      obtain ⟨position, v, -, hv, hpattern⟩ := env.exists_chosen?
        (m := .complex declarations (.matcher matcher)) rfl (h matcher rfl)
      rw [hpattern]
      exact List.mem_map_of_mem (List.mem_of_getElem? hv)

end Environment

/-! ### A message to try things on -/

/-- The expression `{$user :string style=$style}`. -/
def greetedName : Expression where
  operand := some (.variableName "user")
  directive := some (.function ⟨⟨none, "string"⟩, [⟨⟨none, "style"⟩, .variableName "style"⟩]⟩)

/-- The expression `{$name}`. -/
def nameReference : Expression where
  operand := some (.variableName "name")

/-- A matcher with one selector, which welcomes `anna` back and says hello to everybody else. -/
def greetingBody (selector placeholder : Expression) : MessageBody :=
  .matcher ⟨[selector], [⟨[.literal (.name "anna")], [.text "Welcome back"]⟩,
    ⟨[.catchAll], [.text "Hello ", .expression placeholder]⟩]⟩

/-- A message that makes a variable, selects by it and shows it. -/
def greeting : Message :=
  .complex [.assign "name" greetedName] (greetingBody nameReference nameReference)

/-- Values for all that the message reads. -/
def greetingEnvironment : Environment :=
  .standard (.ofList [("user", .string "eve"), ("style", .string "short")])

example : greetingEnvironment.chosen? greeting = some 1 := by decide

example : (Environment.standard .empty).chosen? greeting = some 1 := by decide

end MessageFormat
