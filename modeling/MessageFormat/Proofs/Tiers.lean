import MessageFormat.Proofs.Resolving
import MessageFormat.Proofs.Selection
import MessageFormat.Proofs.Violations

/-!
# The tiers of errors

A message passes through four stages: its text is read, its structure is checked, and it is resolved
with the help of functions.  Each stage has a tier of errors to itself.  Reading and checking may
fail, and then there is no output; what comes after them cannot, and reports errors beside an
output.

* `failsIn_parse`, `Message.failsIn_validate` : the tiers of reading and of checking;
* `Registry.KeepsTier` : the functions of a registry fail in their own tier only;
* `Environment.reportsIn_formatToParts` : the tiers of what is reported beside an output;
* `tiers_apart` : all of this together.
-/

namespace MessageFormat

variable {α β : Type} {tiers : List ErrorTier}

/-! ### Failing in some tiers -/

/-- If the outcome is an error, then one of the tiers. -/
def FailsIn (tiers : List ErrorTier) (outcome : Except Error α) : Prop :=
  ∀ error, outcome = .error error → error.tier ∈ tiers

namespace FailsIn

theorem ok (a : α) : FailsIn tiers (.ok a) := nofun

theorem error {e : Error} (h : e.tier ∈ tiers) : FailsIn tiers (.error e : Except Error α) := by
  rintro _ ⟨⟩
  exact h

theorem bind {x : Except Error α} {f : α → Except Error β} (hx : FailsIn tiers x)
    (hf : ∀ a, FailsIn tiers (f a)) : FailsIn tiers (x >>= f) := by
  cases x with
  | error e => exact .error (hx e rfl)
  | ok a => exact hf a

theorem map {x : Except Error α} (f : α → β) (hx : FailsIn tiers x) : FailsIn tiers (x.map f) := by
  cases x with
  | error e => exact .error (hx e rfl)
  | ok a => exact .ok _

theorem mapError {ε : Type} {x : Except ε α} {f : ε → Error}
    (h : ∀ e, x = .error e → (f e).tier ∈ tiers) : FailsIn tiers (x.mapError f) := by
  cases x with
  | error e => exact .error (h e rfl)
  | ok a => exact .ok a

theorem mono {more : List ErrorTier} {x : Except Error α} (hx : FailsIn tiers x)
    (h : tiers ⊆ more) : FailsIn more x :=
  fun e he => h (hx e he)

end FailsIn

/-! ### Reading -/

theorem Token.tier_unexpected (token : Token) (expected : List TokenKind) (source : String) :
    (token.unexpected expected source).tier = .reading := by
  unfold unexpected
  split <;> rfl

theorem failsIn_tokenize (source : String) : FailsIn [.reading] (tokenize source) := by
  exact .mapError fun _ _ => .head _

theorem Message.failsIn_ofTokens (source : String) (tokens : List Token) :
    FailsIn [.reading] (Message.ofTokens source tokens) := by
  refine .mapError fun mismatch _ => ?_
  exact List.mem_singleton.2 (Token.tier_unexpected _ mismatch.expected source)

/-- Reading fails in its own tier. -/
theorem failsIn_parse (source : String) : FailsIn [.reading] (parse source) :=
  (failsIn_tokenize source).bind fun tokens => Message.failsIn_ofTokens source tokens

/-! ### Checking -/

/-- Checking fails in its own tier. -/
theorem Message.failsIn_validate (m : Message) : FailsIn [.dataModel] m.validate :=
  fun _ h => List.mem_singleton.2 (breaks_of_validate h).tier

/-- A valid message is missing for a reason that is found in reading or in checking. -/
theorem failsIn_parseValid (source : String) :
    FailsIn [.reading, .dataModel] (parseValid source) := by
  refine ((failsIn_parse source).mono (by simp)).bind fun m => ?_
  exact (m.failsIn_validate.mono (by simp)).bind fun _ => .ok m

/-! ### Functions -/

/-- A function that fails in its own tier only. -/
structure MessageFunction.KeepsTier (function : MessageFunction) : Prop where
  /-- In formatting. -/
  format : ∀ operand options locale, FailsIn [.function] (function.format operand options locale)
  /-- In selecting, if it can. -/
  select : ∀ select ∈ function.select?, ∀ value options keys locale,
    FailsIn [.function] (select value options keys locale)

/-- All functions of the registry fail in their own tier only. -/
def Registry.KeepsTier (registry : Registry) : Prop :=
  ∀ name, ∀ function ∈ registry.find? name, function.KeepsTier

theorem textFunction_keepsTier : textFunction.KeepsTier where
  format _ _ _ := .ok _
  select := by
    rintro select ⟨⟩ value options keys locale
    exact .ok _

namespace NumberFunction

variable (function : NumberFunction)

theorem failsIn_readDigits (options : Options) (name : String) (missing : Nat) :
    FailsIn [.function] (function.readDigits options name missing) := by
  unfold readDigits
  split
  · exact .ok _
  · split
    · split
      · exact .ok _
      · exact .error (.head _)
    · exact .error (.head _)

theorem failsIn_readStyle (options : Options) :
    FailsIn [.function] (function.readStyle options) := by
  refine .bind ?_ fun matching => ?_
  · unfold readMatching
    split
    · exact .ok _
    · exact .ok _
    · exact .ok _
    · exact .ok _
    · exact .error (.head _)
  · cases function with
    | integer => exact .ok _
    | number =>
      refine (failsIn_readDigits _ _ _ _).bind fun _ => ?_
      exact (failsIn_readDigits _ _ _ _).bind fun _ => .ok _

variable (plurals : PluralLibrary)

theorem failsIn_category (kind : PluralKind) (locale : Locale) (text : String) :
    FailsIn [.function] (function.category plurals kind locale text) := by
  unfold category
  refine .bind (.mapError fun _ _ => .head _) fun _ => ?_
  exact .mapError fun _ _ => .head _

theorem failsIn_selectAmong (style : NumberStyle) (x : Binary64) (keys : List String)
    (locale : Locale) : FailsIn [.function] (function.selectAmong plurals style x keys locale) := by
  unfold selectAmong
  dsimp only
  split
  · exact .error (.head _)
  · split
    · exact .ok _
    · split
      · exact (function.failsIn_category plurals _ _ _).bind fun _ => .ok _
      · exact .ok _

theorem toFunction_keepsTier : (function.toFunction plurals).KeepsTier where
  format operand options _ := by
    show FailsIn _ (function.format operand options)
    unfold format
    split
    · exact (function.failsIn_readStyle options).bind fun _ => .ok _
    · exact .error (.head _)
  select := by
    rintro _ ⟨⟩ value options keys locale
    show FailsIn _ (function.select plurals value options keys locale)
    unfold select
    split
    · exact (function.failsIn_readStyle options).bind fun style =>
        function.failsIn_selectAmong plurals style _ keys locale
    · exact .error (.head _)

end NumberFunction

namespace Registry

theorem KeepsTier.insert {registry : Registry} (h : registry.KeepsTier)
    {function : MessageFunction} (hfunction : function.KeepsTier) (name : String) :
    Registry.KeepsTier (registry.insert name function) := by
  intro other found hfound
  rw [NameMap.find?_insert] at hfound
  split at hfound
  · cases hfound
    exact hfunction
  · exact h other found hfound

theorem KeepsTier.withFunctions {registry : Registry} (h : registry.KeepsTier)
    {functions : List (String × MessageFunction)}
    (hfunctions : ∀ entry ∈ functions, entry.2.KeepsTier) :
    (registry.withFunctions functions).KeepsTier := by
  induction functions generalizing registry with
  | nil => exact h
  | cons entry functions ih =>
    obtain ⟨hentry, hfunctions⟩ := List.forall_mem_cons.1 hfunctions
    exact ih (h.insert hentry entry.1) hfunctions

/-- Whatever the plural rules, the standard functions keep to their tier. -/
theorem keepsTier_standardFunctions (plurals : PluralLibrary) :
    ∀ entry ∈ plurals.standardFunctions, entry.2.KeepsTier := by
  rw [PluralLibrary.standardFunctions, List.forall_mem_cons, List.forall_mem_cons,
    List.forall_mem_singleton]
  exact ⟨textFunction_keepsTier, NumberFunction.toFunction_keepsTier .number plurals,
    NumberFunction.toFunction_keepsTier .integer plurals⟩

theorem standard_keepsTier : standard.KeepsTier := by
  have hempty : Registry.KeepsTier .empty := nofun
  exact hempty.withFunctions (keepsTier_standardFunctions .builtIn)

end Registry

/-! ### Reporting in some tiers -/

/-- All errors that are reported are of one of the tiers. -/
def Resolution.ReportsIn (tiers : List ErrorTier) (x : Resolution α) : Prop :=
  ∀ error ∈ x.errors, error.tier ∈ tiers

namespace Resolution.ReportsIn

theorem pure (a : α) : ReportsIn tiers (Pure.pure a) := nofun

theorem bind {x : Resolution α} {f : α → Resolution β} (hx : ReportsIn tiers x)
    (hf : ReportsIn tiers (f x.output)) : ReportsIn tiers (x >>= f) := by
  intro e he
  rcases List.mem_append.1 he with he | he
  · exact hx e he
  · exact hf e he

theorem map {x : Resolution α} (f : α → β) (hx : ReportsIn tiers x) :
    ReportsIn tiers (f <$> x) := by
  rwa [ReportsIn, errors_map]

theorem report {e : Error} (h : e.tier ∈ tiers) : ReportsIn tiers (report e) :=
  List.forall_mem_singleton.2 h

theorem mapM {f : α → Resolution β} {items : List α} (h : ∀ a ∈ items, ReportsIn tiers (f a)) :
    ReportsIn tiers (items.mapM f) := by
  intro e he
  rw [errors_mapM] at he
  obtain ⟨a, ha, he⟩ := List.mem_flatMap.1 he
  exact h a ha e he

theorem foldlM {f : β → α → Resolution β} (h : ∀ b a, ReportsIn tiers (f b a)) (b : β)
    (items : List α) : ReportsIn tiers (items.foldlM f b) := by
  induction items generalizing b with
  | nil => exact .pure b
  | cons a rest ih =>
    rw [List.foldlM_cons]
    exact (h b a).bind (ih _)

end Resolution.ReportsIn

/-- The tiers of what is reported beside an output. -/
def reportedTiers : List ErrorTier := [.resolution, .function]

namespace Environment

open Resolution (ReportsIn)

variable {env : Environment} (scope : Scope)

theorem reportsIn_lookUp (name node : String) :
    ReportsIn reportedTiers (env.lookUp scope name node) := by
  unfold lookUp
  split
  · exact .pure _
  · exact .pure _
  · split
    · exact .pure _
    · exact .bind (.report (.head _)) (.pure _)

theorem reportsIn_resolveOperand (node : String) (o : Operand) :
    ReportsIn reportedTiers (env.resolveOperand scope node o) := by
  cases o with
  | literal l => exact .pure _
  | variableName name => exact reportsIn_lookUp scope name node

theorem reportsIn_resolveOptions (node : String) (options : List NamedOption) :
    ReportsIn reportedTiers (env.resolveOptions scope node options) := by
  refine .bind (.mapM fun o _ => ?_) (.pure _)
  refine (reportsIn_resolveOperand scope node o.value).bind ?_
  split
  · exact .pure _
  · exact .pure _

theorem reportsIn_resolve (e : Expression) : ReportsIn reportedTiers (env.resolve scope e) := by
  have hoperand : ReportsIn reportedTiers (e.operand.mapM (env.resolveOperand scope e.print)) := by
    cases e.operand with
    | none => exact .pure _
    | some o => exact (reportsIn_resolveOperand scope e.print o).bind (.pure _)
  refine hoperand.bind ?_
  split
  · exact .pure _
  · split
    · exact .pure _
    · refine (reportsIn_resolveOptions scope _ _).bind ?_
      split
      · exact .pure _
      · exact .bind (.report (.head _)) (.pure _)
    · exact .bind (.report (.head _)) (.pure _)
    · exact .bind (.report (.head _)) (.pure _)

section KeepsTier

variable (h : env.registry.KeepsTier)
include h

theorem failsIn_formatResolved (resolved : Resolved) :
    FailsIn reportedTiers (env.formatResolved resolved) := by
  unfold formatResolved
  split
  · exact .ok _
  · split
    · exact .error (.head _)
    · rename_i function hfunction
      have hfails := (h _ function hfunction).format resolved.operand
      exact .map _ ((hfails _ _).mono (List.subset_cons_self _ _))

theorem reportsIn_evaluate (e : Expression) :
    ReportsIn reportedTiers (env.evaluate scope e) := by
  refine (reportsIn_resolve scope e).bind ?_
  split
  · exact .pure _
  · split
    · exact .pure _
    · rename_i error herror
      exact .bind (.report (failsIn_formatResolved h _ error herror)) (.pure _)

theorem reportsIn_bindingOf (name : String) (e : Expression) :
    ReportsIn reportedTiers (env.bindingOf scope name e) := by
  rw [bindingOf_eq]
  exact (reportsIn_evaluate scope h e).map _

theorem reportsIn_declare (d : Declaration) : ReportsIn reportedTiers (env.declare scope d) := by
  cases d with
  | input e =>
    unfold declare
    dsimp only
    split
    · exact (reportsIn_bindingOf scope h _ e).bind (.pure _)
    · exact .pure _
  | assign name e => exact (reportsIn_bindingOf scope h name e).bind (.pure _)
  | reserved statement => exact .bind (.report (.head _)) (.pure _)

theorem reportsIn_formatPattern (pattern : Pattern) :
    ReportsIn reportedTiers (env.formatPattern scope pattern) := by
  refine .mapM fun part _ => ?_
  cases part with
  | text text => exact .pure _
  | expression e =>
    rw [formatPart, formatExpression_eq]
    exact (reportsIn_evaluate scope h e).map _
  | markup m => exact (reportsIn_resolveOptions scope _ _).bind (.pure _)

theorem reportsIn_matchKeys (selector : Expression) (keys : List String) :
    ReportsIn reportedTiers (env.matchKeys scope selector keys) := by
  refine (reportsIn_resolve scope selector).bind ?_
  split
  · exact .pure _
  · split
    · exact .bind (.report (.head _)) (.pure _)
    · rename_i call select hselect
      split
      · exact .pure _
      · rename_i error herror
        simp only [Option.bind_eq_some_iff, Option.map_eq_some_iff] at hselect
        obtain ⟨_, -, function, hfunction, _, hmem, ⟨⟩⟩ := hselect
        have hfails := (h _ function hfunction).select select hmem
        exact .bind (.report (.tail _ (hfails _ _ _ _ error herror))) (.pure _)

/-- A choice that cannot fail reports what its selectors do. -/
theorem reportsIn_choosePattern {m : Message} (hvalid : ∀ matcher ∈ m.matcher?, matcher.Valid) :
    ReportsIn reportedTiers (env.choosePattern scope m) := by
  cases m with
  | simple pattern => exact .pure _
  | complex declarations body =>
    cases body with
    | pattern pattern => exact .pure _
    | matcher matcher =>
      obtain ⟨_, v, -, -, hchoose⟩ := env.choose_eq (hvalid matcher rfl) scope
      have hselectors : ReportsIn reportedTiers (env.matchSelectors scope matcher) :=
        .mapM fun item _ => reportsIn_matchKeys scope h item.1 _
      rw [choosePattern, hchoose]
      exact hselectors.map _

/-- What is reported beside the output of a valid message is of the later tiers. -/
theorem reportsIn_formatToParts {m : Message} (hvalid : ∀ matcher ∈ m.matcher?, matcher.Valid) :
    ReportsIn reportedTiers (env.formatToParts m) := by
  rw [formatToParts_eq]
  refine .bind (.foldlM (fun scope d => reportsIn_declare scope h d) .empty m.declarations) ?_
  exact (reportsIn_choosePattern _ h hvalid).bind (reportsIn_formatPattern _ h _)

end KeepsTier

end Environment

/-! ### Tiers apart -/

theorem mem_reportedTiers_iff {tier : ErrorTier} :
    tier ∈ reportedTiers ↔ tier = .resolution ∨ tier = .function := by
  simp [reportedTiers]

/-- **The tiers of errors never mix, and selection is total.**  Reading and checking fail in their
own tiers.  A valid message always has an output: the formatted parts of its only pattern, or of the
pattern of the one variant that its matcher chooses, whatever the functions do; and if these fail in
their own tier, as the standard ones do, then what is reported beside the output is of the two later
tiers.  So the text of a message fails to be formatted in the two earlier tiers only. -/
theorem tiers_apart :
    (∀ source, FailsIn [.reading] (parse source)) ∧
    (∀ m : Message, FailsIn [.dataModel] m.validate) ∧
    (∀ (env : Environment) (m : Message), m.validate = .ok () →
      (env.formatToParts m).output =
          (env.formatPattern (env.scopeOf m) (env.patternOf m)).output ∧
        (∀ matcher ∈ m.matcher?, ∃ position v, env.chosen? m = some position ∧
          matcher.variants[position]? = some v ∧ env.patternOf m = v.pattern) ∧
        (env.format m).errors = (env.formatToParts m).errors ∧
        (env.registry.KeepsTier → ∀ error ∈ (env.formatToParts m).errors,
          (error.tier = .resolution ∨ error.tier = .function) ∧
            error.cause ≠ .missingFallback)) ∧
    Registry.standard.KeepsTier ∧
    ∀ source input,
      FailsIn [.reading, .dataModel] (format source input) ∧
      FailsIn [.reading, .dataModel] (formatToParts source input) ∧
      ∀ m, parseValid source = .ok m → ∃ text parts, format source input = .ok text ∧
        formatToParts source input = .ok parts ∧ text.errors = parts.errors ∧
          ∀ error ∈ parts.errors, error.tier = .resolution ∨ error.tier = .function := by
  refine ⟨failsIn_parse, Message.failsIn_validate, fun env m hvalidate => ?_,
    Registry.standard_keepsTier, fun source input => ?_⟩
  · have hvalid := Message.forall_matcher_valid hvalidate
    refine ⟨env.output_formatToParts m, fun matcher hm => env.exists_chosen? hm (hvalid matcher hm),
      Resolution.errors_map _ _, fun hkeeps error herror => ?_⟩
    have hreported := Environment.reportsIn_formatToParts hkeeps hvalid error herror
    refine ⟨mem_reportedTiers_iff.1 hreported, fun hcause => ?_⟩
    rw [Error.tier, hcause] at hreported
    exact absurd hreported (by decide)
  · refine ⟨(failsIn_parseValid source).map _, (failsIn_parseValid source).map _, fun m hm => ?_⟩
    have hvalid := Message.forall_matcher_valid (parseValid_eq_ok_iff.1 hm).2
    refine ⟨(Environment.standard input).format m, (Environment.standard input).formatToParts m,
      by rw [format, hm]; rfl, by rw [formatToParts, hm]; rfl, Resolution.errors_map _ _, ?_⟩
    intro error herror
    exact mem_reportedTiers_iff.1
      (Environment.reportsIn_formatToParts Registry.standard_keepsTier hvalid error herror)

/-- Without a value for what it reads, the greeting is that of everybody else, with errors beside
it. -/
theorem tiers_apart_greeting :
    greeting.validate = .ok () ∧ Registry.standard.KeepsTier ∧
      (∃ position, ∃ v : Variant, (Environment.standard .empty).chosen? greeting = some position ∧
        (Environment.standard .empty).patternOf greeting = v.pattern) ∧
      ∀ error ∈ ((Environment.standard .empty).formatToParts greeting).errors,
        error.tier = .resolution ∨ error.tier = .function := by
  obtain ⟨-, -, hvalid, hstandard, -⟩ := tiers_apart
  obtain ⟨-, hchosen, -, hreported⟩ := hvalid (.standard .empty) greeting rfl
  obtain ⟨position, v, hposition, -, hpattern⟩ := hchosen _ rfl
  exact ⟨rfl, hstandard, ⟨position, v, hposition, hpattern⟩, fun error herror =>
    (hreported hstandard error herror).1⟩

end MessageFormat
