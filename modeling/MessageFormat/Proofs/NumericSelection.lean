import MessageFormat.Proofs.Rereading
import MessageFormat.Proofs.Variants

/-!
# Selecting by a number

A matcher with one selector that is a number chooses the first variant with a key of the same value
as the rounded number, then the one that is keyed with its plural category, and then the one that
matches always.  A key that is neither a number literal nor the name of a category is an error, and
then only the variant that matches always is left.  Which category a number has, a library of plural
rules decides; all that is said here holds for any of them.

* `NumberFunction.bounds_of_readStyle` : how many digits a style may ask for;
* `NumberFunction.category_eq_ok_iff` : what is asked of the library;
* `NumberFunction.select_of_numeric`, `NumberFunction.select_of_find?` : the keys that match;
* `isBest_of_numericChoice?` : the best variant for these keys;
* `number_selection` : what a message formats that selects by a number.
-/

namespace MessageFormat

/-! ### Styles -/

namespace NumberFunction

variable {function : NumberFunction} {options : Options} {style : NumberStyle}

theorem readDigits_le {name : String} {missing count : Nat} (hmissing : missing ≤ maximumDigits)
    (h : function.readDigits options name missing = .ok count) : count ≤ maximumDigits := by
  unfold readDigits at h
  split at h
  · cases h
    exact hmissing
  · split at h
    · split at h
      · rename_i hrange
        cases h
        omega
      · cases h
    · cases h

/-- The counts of digits of a style that the options ask for. -/
theorem bounds_of_readStyle (h : function.readStyle options = .ok style) :
    style.minimum ≤ style.maximum ∧ style.maximum ≤ maximumDigits := by
  rw [readStyle, bind_eq_ok_iff] at h
  obtain ⟨matching, -, h⟩ := h
  cases function with
  | integer =>
    cases h
    exact ⟨Nat.le_refl 0, Nat.zero_le _⟩
  | number =>
    obtain ⟨minimum, hminimum, h⟩ := bind_eq_ok_iff.1 h
    obtain ⟨maximum, hmaximum, h⟩ := bind_eq_ok_iff.1 h
    cases h
    exact ⟨Nat.le_max_right _ _, Nat.max_le.2 ⟨readDigits_le (by decide) hmaximum,
      readDigits_le (by decide) hminimum⟩⟩

/-! ### Keys that a number matches -/

/-- A key that reads as the formatted number without its sign, and the sign of the number, is a key
of the rounded number. -/
theorem isKeyOf_of_format {x : Binary64} (hx : x.isFinite = true)
    (hmaximum : style.maximum ≤ maximumDigits) :
    isKeyOf (((Binary64.ofText? (style.format x.abs).toList).getD x.abs).withSign x.isNegative) =
      isKeyOf (x.roundTo style.maximum) := by
  have habs : x.abs.isNegative = false := by cases x <;> rfl
  have hplaces : style.maximum ≤ 22 := hmaximum.trans (by decide)
  funext key
  rw [NumberStyle.ofText?_format hplaces habs, Option.getD_some, isKeyOf, isKeyOf]
  simp only [Binary64.beq_withSign_roundTo hx]

/-- The keys that are matched by their plural category. -/
def categoryKeys (matching : KeyMatching) (category : PluralCategory) (keys : List String) :
    List String :=
  match matching with
  | .exact => []
  | .plural _ => if category.name ∈ keys then [category.name] else []

theorem isNumberLiteral_name (category : PluralCategory) :
    isNumberLiteral category.name = false := by
  cases category <;> decide

/-- A number has the category that a library puts it into, and none if the library does not. -/
theorem category_eq_ok_iff {plurals : PluralLibrary} {kind : PluralKind} {locale : Locale}
    {text : String} {category : PluralCategory} :
    function.category plurals kind locale text = .ok category ↔
      plurals.Puts kind locale text category := by
  rw [NumberFunction.category, bind_eq_ok_iff, PluralLibrary.Puts]
  simp only [mapError_eq_ok_iff, PluralLibrary.rulesFor_eq_ok_iff]

section Selecting

variable {plurals : PluralLibrary} {value : Value} {x : Binary64} {keys : List String}
  {locale : Locale} (hoperand : operand? value = some x)
  (hstyle : function.readStyle options = .ok style)
include hoperand hstyle

/-- Among keys that are number literals or names of categories, those of the rounded number are
matched first, and then the name of its plural category.  What that is, is asked only if some key is
no number literal. -/
theorem select_of_numeric {category : PluralCategory}
    (hkeys : ∀ key ∈ keys, isNumericKey key = true)
    (hcategory : ∀ kind, style.matching = .plural kind →
      (∃ key ∈ keys, isNumberLiteral key = false) →
        plurals.Puts kind locale (style.format x.abs) category) :
    function.select plurals value options keys locale =
      .ok (keys.filter (isKeyOf (x.roundTo style.maximum)) ++
        categoryKeys style.matching category keys) := by
  have hx : x.isFinite = true := (Option.filter_eq_some_iff.1 hoperand).2
  have hnumeric : keys.find? (!isNumericKey ·) = none := by
    simpa using hkeys
  rw [select, hoperand, hstyle]
  change selectAmong _ _ _ _ _ _ = _
  rw [selectAmong, hnumeric]
  dsimp only
  rw [isKeyOf_of_format hx (bounds_of_readStyle hstyle).2]
  cases hmatching : style.matching with
  | exact => rw [categoryKeys, List.append_nil]
  | plural kind =>
    dsimp only
    split
    · rename_i hnamed
      have hputs := hcategory kind hmatching (by simpa using hnamed)
      rw [category_eq_ok_iff.2 hputs]
      rfl
    · -- all keys are number literals, so that none of them is the name of a category
      rename_i hliterals
      have hname : category.name ∉ keys := fun hmem =>
        hliterals (List.any_eq_true.2 ⟨_, hmem, by rw [isNumberLiteral_name]; rfl⟩)
      rw [categoryKeys, if_neg hname, List.append_nil]

/-- Among keys that are number literals, those of the rounded number are matched; its plural
category is not asked. -/
theorem select_of_literals (hkeys : ∀ key ∈ keys, isNumberLiteral key = true) :
    function.select plurals value options keys locale =
      .ok (keys.filter (isKeyOf (x.roundTo style.maximum))) := by
  have hnumeric : ∀ key ∈ keys, isNumericKey key = true := fun key hkey => by
    rw [isNumericKey, hkeys key hkey, Bool.true_or]
  have hname : PluralCategory.other.name ∉ keys := fun hmem => by
    have := hkeys _ hmem
    rw [isNumberLiteral_name] at this
    cases this
  have hnone : categoryKeys style.matching .other keys = [] := by
    cases style.matching with
    | exact => rfl
    | plural kind => exact if_neg hname
  have hselect : function.select plurals value options keys locale =
      .ok (keys.filter (isKeyOf (x.roundTo style.maximum)) ++
        categoryKeys style.matching .other keys) := by
    refine select_of_numeric hoperand hstyle hnumeric ?_
    rintro kind - ⟨key, hkey, hliteral⟩
    rw [hkeys key hkey] at hliteral
    cases hliteral
  rw [hselect, hnone, List.append_nil]

/-- The first key that is neither is an error. -/
theorem select_of_find? {key : String} (h : keys.find? (!isNumericKey ·) = some key) :
    function.select plurals value options keys locale =
      .error (.ofCause (.badKey function.name key)) := by
  rw [select, hoperand, hstyle]
  change selectAmong _ _ _ _ _ _ = _
  rw [selectAmong, h]

end Selecting

end NumberFunction

/-! ### The variant for a number -/

/-- The text of the first key, if it is a literal. -/
def Variant.firstText? (v : Variant) : Option String := v.keys[0]?.bind VariantKey.text?

/-- The first variant, in the order written, whose first key is a literal with a property. -/
def firstKeyed? (variants : List Variant) (p : String → Bool) : Option Variant :=
  variants.find? fun v => v.firstText?.any p

/-- The variant for a rounded number and its plural category: the first one with a key of the same
value, then, unless keys are matched by equality alone, the one that is keyed with the category, and
then the one that matches always. -/
def numericChoice? (variants : List Variant) (matching : KeyMatching) (rounded : Binary64)
    (category : PluralCategory) : Option Variant :=
  (firstKeyed? variants (isKeyOf rounded)).or
    ((match matching with
      | .exact => none
      | .plural _ => firstKeyed? variants (· == category.name)).or
      (variants.find? Variant.isFallback))

/-- The first key with a property is that of the first variant that is keyed so. -/
theorem head?_filter_columnKeys (variants : List Variant) (p : String → Bool) :
    ((columnKeys variants 0).filter p).head? =
      (firstKeyed? variants p).bind Variant.firstText? := by
  rw [List.head?_filter, columnKeys, find?_eraseDups, List.find?_filterMap]
  rfl

theorem filter_columnKeys_of_eq_some {variants : List Variant} {p : String → Bool} {v : Variant}
    (h : firstKeyed? variants p = some v) :
    ∃ text rest, v.firstText? = some text ∧ (columnKeys variants 0).filter p = text :: rest := by
  obtain ⟨text, htext, -⟩ : ∃ text, v.firstText? = some text ∧ p text = true :=
    (Option.any_eq_true _ _).1 (List.find?_some h :)
  have hhead := head?_filter_columnKeys variants p
  rw [h, Option.bind_some, htext, List.head?_eq_some_iff] at hhead
  obtain ⟨rest, hrest⟩ := hhead
  exact ⟨text, rest, htext, hrest⟩

theorem filter_columnKeys_of_eq_none {variants : List Variant} {p : String → Bool}
    (h : firstKeyed? variants p = none) : (columnKeys variants 0).filter p = [] := by
  rw [← List.head?_eq_none_iff, head?_filter_columnKeys, h, Option.bind_none]

section Single

variable {selector : Expression} {variants : List Variant} {v : Variant}
  {column : Option (List String)}

theorem Variant.rank?_single {key : VariantKey} (h : v.keys = [key]) :
    v.rank? [column] =
      (key.place? column).map fun place => [if key.isCatchAll then 1 else 0, place] := by
  rw [rank?, h, catchAllCount, h]
  cases hplace : key.place? column <;> cases key <;> simp [hplace, VariantKey.isCatchAll]

/-- Where nothing is matched, only variants that match always are eligible. -/
theorem Variant.rank?_eq_some_of_nil (hlength : v.keys.length = 1) (hcolumn : column.getD [] = [])
    {rank : List Nat} (h : v.rank? [column] = some rank) : rank = [1, 0] := by
  obtain ⟨key, hkey⟩ := List.length_eq_one_iff.1 hlength
  rw [rank?_single hkey, Option.map_eq_some_iff] at h
  obtain ⟨place, hplace, rfl⟩ := h
  cases key with
  | catchAll =>
    cases column with
    | none =>
      cases hplace
      rfl
    | some texts =>
      obtain rfl : texts = [] := hcolumn
      cases hplace
      rfl
  | literal l =>
    cases column with
    | none => cases hplace
    | some texts =>
      obtain rfl : texts = [] := hcolumn
      cases hplace

theorem isBest_of_nil (hvalid : Matcher.Valid ⟨[selector], variants⟩) (hv : v ∈ variants)
    (hfallback : v.isFallback = true) (hcolumn : column.getD [] = []) :
    IsBest variants [column] v := by
  have hsome : (v.rank? [column]).isSome = true :=
    Variant.isSome_rank?_of_catchAll (hvalid.keyed v hv) (Variant.isFallback_iff.1 hfallback)
  obtain ⟨rank, hrank⟩ := Option.isSome_iff_exists.1 hsome
  refine ⟨hv, rank, hrank, fun w hw other hother => ?_⟩
  rw [Variant.rank?_eq_some_of_nil (hvalid.keyed v hv) hcolumn hrank,
    Variant.rank?_eq_some_of_nil (hvalid.keyed w hw) hcolumn hother]
  exact lt_irrefl _

/-- The variant that is keyed with the first text that is matched is the best. -/
theorem isBest_of_firstText? (hvalid : Matcher.Valid ⟨[selector], variants⟩) (hv : v ∈ variants)
    {text : String} {rest : List String} (htext : v.firstText? = some text) :
    IsBest variants [some (text :: rest)] v := by
  obtain ⟨key, hkey⟩ := List.length_eq_one_iff.1 (hvalid.keyed v hv)
  rw [Variant.firstText?, hkey] at htext
  cases key with
  | catchAll => cases htext
  | literal l =>
    cases htext
    refine ⟨hv, [0, 0], ?_, fun w hw other hother hlt => ?_⟩
    · rw [Variant.rank?_single hkey]
      simp [VariantKey.place?, List.idxOf?_cons, VariantKey.isCatchAll]
    · -- no rank of two numbers is less
      obtain ⟨key, hkey⟩ := List.length_eq_one_iff.1 (hvalid.keyed w hw)
      rw [Variant.rank?_single hkey, Option.map_eq_some_iff] at hother
      obtain ⟨place, -, rfl⟩ := hother
      simp [List.cons_lt_cons_iff] at hlt

/-- **The variant for a number is the best one for the keys that the number matches.** -/
theorem isBest_of_numericChoice? (hvalid : Matcher.Valid ⟨[selector], variants⟩)
    {matching : KeyMatching} {rounded : Binary64} {category : PluralCategory}
    (h : numericChoice? variants matching rounded category = some v) :
    IsBest variants [some ((columnKeys variants 0).filter (isKeyOf rounded) ++
      NumberFunction.categoryKeys matching category (columnKeys variants 0))] v := by
  unfold numericChoice? at h
  cases hkeyed : firstKeyed? variants (isKeyOf rounded) with
  | some w =>
    rw [hkeyed, Option.some_or] at h
    cases h
    obtain ⟨text, rest, htext, hkeys⟩ := filter_columnKeys_of_eq_some hkeyed
    rw [hkeys]
    exact isBest_of_firstText? hvalid (List.mem_of_find?_eq_some hkeyed) htext
  | none =>
    rw [hkeyed, Option.none_or] at h
    rw [filter_columnKeys_of_eq_none hkeyed, List.nil_append]
    cases matching with
    | exact => exact isBest_of_nil hvalid (List.mem_of_find?_eq_some h) (List.find?_some h) rfl
    | plural kind =>
      dsimp only at h
      rw [NumberFunction.categoryKeys, ← filter_columnKeys]
      cases hnamed : firstKeyed? variants (· == category.name) with
      | some w =>
        rw [hnamed, Option.some_or] at h
        cases h
        obtain ⟨text, rest, htext, hkeys⟩ := filter_columnKeys_of_eq_some hnamed
        rw [hkeys]
        exact isBest_of_firstText? hvalid (List.mem_of_find?_eq_some hnamed) htext
      | none =>
        rw [hnamed, Option.none_or] at h
        rw [filter_columnKeys_of_eq_none hnamed]
        exact isBest_of_nil hvalid (List.mem_of_find?_eq_some h) (List.find?_some h) rfl

end Single

/-! ### Messages -/

namespace Environment

variable {env : Environment} {scope : Scope} {selector : Expression} {resolved : Resolved}

/-- What the best variant is decides what a valid matcher chooses. -/
theorem choose_of_isBest {m : Matcher} (hvalid : m.Valid) {v : Variant}
    (hbest : IsBest m.variants (env.matchSelectors scope m).output v) :
    env.choose scope m = (fun _ => v.pattern) <$> env.matchSelectors scope m := by
  obtain ⟨position, w, hposition, hw, hchoose⟩ := env.choose_eq hvalid scope
  rw [← bind_bestVariant_eq_some_iff hvalid.distinct, hposition, Option.bind_some, hw] at hbest
  cases hbest
  exact hchoose

theorem matchSelectors_single (variants : List Variant) :
    env.matchSelectors scope ⟨[selector], variants⟩ =
      (fun column => [column]) <$> env.matchKeys scope selector (columnKeys variants 0) := by
  simp [matchSelectors]

theorem choosePattern_of_matcher? {m : Message} {matcher : Matcher}
    (h : m.matcher? = some matcher) : env.choosePattern scope m = env.choose scope matcher := by
  cases m with
  | simple => cases h
  | complex _ body =>
    cases body with
    | pattern => cases h
    | matcher _ =>
      cases h
      rfl

/-- What a selector matches that resolves to a call of a function which selects, if it reads no
variable that is unknown. -/
theorem matchKeys_of_call {call : Call} {function : MessageFunction}
    {select : Value → Options → List String → Locale → Except Error (List String)}
    (hreads : ∀ name ∈ selector.reads, (env.known? scope name).isSome = true)
    (hresolve : (env.resolve scope selector).output = .ok resolved)
    (hcall : resolved.call = some call) (hfunction : env.registry.find? call.name = some function)
    (hselect : function.select? = some select) (keys : List String) :
    env.matchKeys scope selector keys =
      match select resolved.operandOrNull call.options keys env.settings.locale with
      | .ok matched => return some matched
      | .error error => do
        .report (error.atNode selector.print)
        return none := by
  rw [matchKeys, resolve_eq_pure_of_known hreads hresolve, pure_bind]
  dsimp only
  rw [hcall, Option.bind_some, hfunction, Option.bind_some, hselect]
  rfl

/-- A message with a single selector formats the variant that is the best one for what the selector
matches. -/
theorem formatToParts_of_isBest {m : Message} {variants : List Variant} {v : Variant}
    {outcome : Resolution (Option (List String))} (hvalid : m.validate = .ok ())
    (hmatcher : m.matcher? = some ⟨[selector], variants⟩)
    (hmatch : env.matchKeys (env.scopeOf m) selector (columnKeys variants 0) = outcome)
    (hbest : IsBest variants [outcome.output] v) :
    env.formatToParts m = (do
      let scope ← env.declareAll m.declarations
      let _ ← outcome
      env.formatPattern scope v.pattern) := by
  have hmatched : (env.matchSelectors (env.scopeOf m) ⟨[selector], variants⟩).output =
      [outcome.output] := by
    rw [matchSelectors_single, hmatch]
    rfl
  have hchoose :=
    choose_of_isBest (Message.forall_matcher_valid hvalid _ hmatcher) (hmatched ▸ hbest)
  rw [formatToParts_eq]
  refine Resolution.bind_congr_output ?_
  change env.choosePattern (env.scopeOf m) m >>= _ = outcome >>= _
  rw [choosePattern_of_matcher? hmatcher, hchoose, matchSelectors_single, bind_map_left,
    bind_map_left, hmatch]

end Environment

/-- **What a message formats that selects by a number.**  Its only selector resolves to a call of
`:number` or `:integer`, with options that are in order and a finite number for an operand, and reads
no variable that is unknown.  If every key is a number literal or the name of a category, nothing is
reported about the selector, and the variant for the rounded number is formatted; what its plural
category is, a library of plural rules says for the locale, and if every key is a number literal, it
need not say anything.  Otherwise the first key that is neither is reported, and nothing else about
the selector, and the variant that matches always is formatted. -/
theorem number_selection {plurals : PluralLibrary} {env : Environment} {m : Message}
    {selector : Expression} {variants : List Variant} {resolved : Resolved}
    {function : NumberFunction} {options : Options} {style : NumberStyle} {x : Binary64}
    (hvalid : m.validate = .ok ()) (hmatcher : m.matcher? = some ⟨[selector], variants⟩)
    (hreads : ∀ name ∈ selector.reads, (env.known? (env.scopeOf m) name).isSome = true)
    (hresolve : (env.resolve (env.scopeOf m) selector).output = .ok resolved)
    (hcall : resolved.call = some ⟨function.name, options⟩)
    (hfunction : env.registry.find? function.name = some (function.toFunction plurals))
    (hstyle : function.readStyle options = .ok style)
    (hoperand : NumberFunction.operand? resolved.operandOrNull = some x) :
    ((∀ key ∈ columnKeys variants 0, isNumericKey key = true) → ∀ category,
      (∀ kind, style.matching = .plural kind →
        (∃ key ∈ columnKeys variants 0, isNumberLiteral key = false) →
          plurals.Puts kind env.settings.locale (style.format x.abs) category) →
      ∃ v, numericChoice? variants style.matching (x.roundTo style.maximum) category = some v ∧
        env.formatToParts m = (do
          let scope ← env.declareAll m.declarations
          env.formatPattern scope v.pattern)) ∧
    ∀ key, (columnKeys variants 0).find? (!isNumericKey ·) = some key →
      ∃ v, variants.find? Variant.isFallback = some v ∧
        env.formatToParts m = (do
          let scope ← env.declareAll m.declarations
          .report ((Error.ofCause (.badKey function.name key)).atNode selector.print)
          env.formatPattern scope v.pattern) := by
  have hmatches := Message.forall_matcher_valid hvalid _ hmatcher
  have hmatch :=
    Environment.matchKeys_of_call hreads hresolve hcall hfunction rfl (columnKeys variants 0)
  obtain ⟨fallback, hfallback⟩ : ∃ v, variants.find? Variant.isFallback = some v := by
    obtain ⟨v, hv, hkeys⟩ := hmatches.fallback
    exact Option.isSome_iff_exists.1
      (List.find?_isSome.2 ⟨v, hv, Variant.isFallback_iff.2 hkeys⟩)
  constructor
  · intro hkeys category hcategory
    obtain ⟨v, hv⟩ : ∃ v, numericChoice? variants style.matching (x.roundTo style.maximum)
        category = some v := by
      rw [← Option.isSome_iff_exists, numericChoice?.eq_def, hfallback]
      simp
    rw [NumberFunction.select_of_numeric hoperand hstyle hkeys hcategory] at hmatch
    exact ⟨v, hv, Environment.formatToParts_of_isBest hvalid hmatcher hmatch
      (isBest_of_numericChoice? hmatches hv)⟩
  · intro key hkey
    rw [NumberFunction.select_of_find? hoperand hstyle hkey] at hmatch
    exact ⟨fallback, hfallback, Environment.formatToParts_of_isBest hvalid hmatcher hmatch
      (isBest_of_nil hmatches (List.mem_of_find?_eq_some hfallback)
        (List.find?_some hfallback) rfl)⟩

/-- The expression `{$count :number}`. -/
def countedNumber : Expression where
  operand := some (.variableName "count")
  directive := some (.function ⟨⟨none, "number"⟩, []⟩)

/-- Variants for counts of apples, with a key to be filled in. -/
def appleVariants (key : String) : List Variant :=
  [⟨[.literal (.name "one")], [.text "one apple"]⟩,
    ⟨[.literal (.quoted key)], [.text "a single apple"]⟩, ⟨[.catchAll], [.text "apples"]⟩]

/-- A message that counts apples. -/
def apples (key : String) : Message := .complex [] (.matcher ⟨[countedNumber], appleVariants key⟩)

/-- A caller who has some apples. -/
def appleEnvironment (count : Int64) : Environment := .standard (.ofList [("count", .int count)])

/-- Of the keys of one apple its number comes first, and then its plural category in English; a key
that is neither is reported. -/
theorem number_selection_apples :
    (appleEnvironment 1).formatToParts (apples "1.0") = ⟨[.text "a single apple"], []⟩ ∧
      (appleEnvironment 1).formatToParts (apples "2") = ⟨[.text "one apple"], []⟩ ∧
      (appleEnvironment 1).formatToParts (apples "lots") = ⟨[.text "apples"],
        [(Error.ofCause (.badKey "number" "lots")).atNode countedNumber.print]⟩ := by
  have hreads : ∀ key, ∀ name ∈ countedNumber.reads,
      ((appleEnvironment 1).known? ((appleEnvironment 1).scopeOf (apples key)) name).isSome =
        true := fun _ => List.forall_mem_singleton.2 rfl
  have hresolve : ∀ key, ((appleEnvironment 1).resolve
      ((appleEnvironment 1).scopeOf (apples key)) countedNumber).output =
        .ok ⟨some (.int 1), some ⟨"number", .empty⟩⟩ := fun _ => rfl
  have hstyle : NumberFunction.number.readStyle .empty = .ok ⟨0, 3, .plural .cardinal⟩ := rfl
  have hoperand : NumberFunction.operand? (.int 1) = some (Binary64.ofInt 1) := by decide +kernel
  have htext : (NumberStyle.mk 0 3 (.plural .cardinal)).format (Binary64.ofInt 1).abs = "1" := by
    decide +kernel
  have hputs : PluralLibrary.builtIn.Puts .cardinal .default "1" .one := ⟨_, .exactly rfl, rfl⟩
  have hname : isKeyOf ((Binary64.ofInt 1).roundTo 3) "one" = false := by decide +kernel
  have hequal : isKeyOf ((Binary64.ofInt 1).roundTo 3) "1.0" = true := by decide +kernel
  have hother : isKeyOf ((Binary64.ofInt 1).roundTo 3) "2" = false := by decide +kernel
  have hbyNumber : numericChoice? (appleVariants "1.0") (.plural .cardinal)
      ((Binary64.ofInt 1).roundTo 3) .one = (appleVariants "1.0")[1]? := by
    simp [numericChoice?, firstKeyed?, appleVariants, Variant.firstText?, VariantKey.text?,
      Literal.value, hname, hequal]
  have hbyCategory : numericChoice? (appleVariants "2") (.plural .cardinal)
      ((Binary64.ofInt 1).roundTo 3) .one = (appleVariants "2")[0]? := by
    simp [numericChoice?, firstKeyed?, appleVariants, Variant.firstText?, VariantKey.text?,
      Literal.value, hname, hother, PluralCategory.name]
  refine ⟨?_, ?_, ?_⟩
  · obtain ⟨v, hv, hformat⟩ := (number_selection rfl rfl (hreads "1.0") (hresolve "1.0") rfl rfl
      hstyle hoperand).1 (by decide) .one fun kind hkind _ => by
        cases hkind
        rwa [htext]
    cases hbyNumber.symm.trans hv
    rw [hformat]
    rfl
  · obtain ⟨v, hv, hformat⟩ := (number_selection rfl rfl (hreads "2") (hresolve "2") rfl rfl
      hstyle hoperand).1 (by decide) .one fun kind hkind _ => by
        cases hkind
        rwa [htext]
    cases hbyCategory.symm.trans hv
    rw [hformat]
    rfl
  · obtain ⟨v, hv, hformat⟩ := (number_selection rfl rfl (hreads "lots") (hresolve "lots") rfl rfl
      hstyle hoperand).2 "lots" (by decide)
    cases hv
    rw [hformat]
    rfl

end MessageFormat
