import MessageFormat.Formatting
import MessageFormat.Proofs.ParsedNodes
import MessageFormat.Proofs.Reannotation

/-!
# The options of functions and of markup

The check of the data model compares the options of a function or of markup by their identifiers,
and a run keeps them by the texts of these.  No two identifiers of a parsed message have the same
text, so that no option of a valid message is kept in the stead of another one: each has its own
entry, unless it has no value, and then it is as if it were not there.

* `Identifier.WellShaped.text_injective` : the text of an identifier determines it;
* `NameMap.entries_ofList_perm` : of entries under different names, all are kept;
* `optionMaps_exact` : the options of a valid message in a run.
-/

namespace MessageFormat

/-! ### Entries of a map -/

namespace NameMap

variable {α : Type} {name : String} {value : α} {entries : List (String × α)}

theorem insertEntry_perm (h : name ∉ entries.map (·.1)) :
    (insertEntry name value entries).Perm ((name, value) :: entries) := by
  induction entries with
  | nil => exact .refl _
  | cons head rest ih =>
    obtain ⟨other, x⟩ := head
    rw [List.map_cons, List.mem_cons, not_or] at h
    unfold insertEntry
    split
    · exact .refl _
    · rw [if_neg h.1]
      exact ((ih h.2).cons _).trans (.swap _ _ _)

/-- **Of entries under different names, all are kept.** -/
theorem entries_ofList_perm (h : (entries.map (·.1)).Nodup) :
    (ofList entries).entries.Perm entries := by
  suffices hfold : ∀ map : NameMap α, ((map.entries ++ entries).map (·.1)).Nodup →
      (entries.foldl (fun map entry => map.insert entry.1 entry.2) map).entries.Perm
        (map.entries ++ entries) from hfold empty h
  clear h
  induction entries with
  | nil =>
    intro map _
    rw [List.append_nil]
    exact .refl _
  | cons entry rest ih =>
    intro map hnodup
    have hnew : entry.1 ∉ map.entries.map (·.1) := by
      rw [List.map_append, List.map_cons, List.nodup_append] at hnodup
      exact fun hmem => hnodup.2.2 _ hmem _ List.mem_cons_self rfl
    have hinsert : ((map.insert entry.1 entry.2).entries ++ rest).Perm
        (map.entries ++ entry :: rest) :=
      ((insertEntry_perm hnew).append_right rest).trans List.perm_middle.symm
    exact (ih _ ((hinsert.map _).nodup_iff.2 hnodup)).trans hinsert

theorem find?_ofList_eq_some_iff (h : (entries.map (·.1)).Nodup) :
    (ofList entries).find? name = some value ↔ (name, value) ∈ entries := by
  refine ⟨fun hfind => ?_, find?_ofList_of_mem h⟩
  rw [find?_ofList] at hfind
  obtain ⟨before, behind, hentries, -⟩ := List.lookup_eq_some_iff.1 hfind
  rw [← List.mem_reverse, hentries]
  exact List.mem_append_right _ List.mem_cons_self

end NameMap

/-! ### Names of options -/

/-- The text of an identifier determines it, since a colon in it can only be the one behind the
namespace. -/
theorem Identifier.WellShaped.text_injective {i j : Identifier} (hi : i.WellShaped)
    (hj : j.WellShaped) (h : i.text = j.text) : i = j := by
  rw [← hi.ofText_text, h, hj.ofText_text]

theorem Message.WellShaped.options {m : Message} (h : m.WellShaped) :
    ∀ options ∈ m.optionLists, ∀ o ∈ options, o.WellShaped :=
  forall_optionLists.2 ⟨fun e he _ ho => .of_mem_options (h.expressions e he) ho,
    fun k hk => (h.markups k hk).options⟩

/-- In a valid message, no two options of a function or of markup have the same identifier. -/
theorem nodup_identifiers_of_validate {m : Message} (h : m.validate = .ok ()) :
    ∀ options ∈ m.optionLists, (options.map (·.identifier)).Nodup := by
  obtain ⟨⟨hdeclarations, -⟩, hmatcher, hpatterns⟩ := Message.validate_eq_ok_iff.1 h
  have hparts := fun pattern hp => Pattern.check_eq_ok_iff.1 (hpatterns pattern hp)
  refine Message.forall_optionLists.2 ⟨Message.forall_expressions.2 ⟨fun d hd e he => ?_,
    fun matcher hm e he => ?_, fun pattern hp e he => ?_⟩,
    List.forall_mem_flatMap.2 fun pattern hp k hk => ?_⟩
  · exact ((hdeclarations d hd).sound e he).distinct
  · exact ((hmatcher matcher hm).2.1 e he).distinct
  · exact ((hparts pattern hp).1 e he).distinct
  · exact ((hparts pattern hp).2 k hk).distinct

/-- Nor are two of them written alike. -/
theorem nodup_optionTexts {source : String} {m : Message} (h : parseValid source = .ok m)
    {options : List NamedOption} (hoptions : options ∈ m.optionLists) :
    (options.map (·.identifier.text)).Nodup := by
  obtain ⟨hparse, hvalidate⟩ := parseValid_eq_ok_iff.1 h
  have hshaped := (wellShaped_of_parse hparse).options options hoptions
  have hdistinct := nodup_identifiers_of_validate hvalidate options hoptions
  have htexts : options.map (·.identifier.text) =
      (options.map (·.identifier)).map Identifier.text := by
    rw [List.map_map]
    rfl
  rw [htexts]
  refine List.Nodup.map_on (fun i hi j hj hij => ?_) hdistinct
  obtain ⟨o, ho, rfl⟩ := List.mem_map.1 hi
  obtain ⟨p, hp, rfl⟩ := List.mem_map.1 hj
  exact (hshaped o ho).identifier.text_injective (hshaped p hp).identifier hij

/-! ### Values of options -/

namespace Environment

variable {env : Environment} {scope : Scope} {options : List NamedOption}

/-- The value of an option: that of a literal, that which the variable is bound to, or, if no
declaration has bound the variable, that of the caller. -/
def optionValue? (env : Environment) (scope : Scope) : Operand → Option Value
  | .literal l => some (.string l.value)
  | .variableName name =>
    match scope.find? name with
    | some (.value resolved) => some resolved.operandOrNull
    | some (.fallback _) => none
    | none => env.input.find? name

theorem optionValue?_eq (o : Operand) :
    env.optionValue? scope o = (env.valueOf? scope o).map (·.operandOrNull) := by
  cases o with
  | literal l => rfl
  | variableName name =>
    rw [optionValue?, valueOf?, known?]
    cases scope.find? name with
    | some binding => cases binding <;> rfl
    | none => cases env.input.find? name <;> rfl

theorem entryOf?_eq (o : NamedOption) : env.entryOf? scope o =
    (env.optionValue? scope o.value).map fun value => (o.identifier.text, value) := by
  rw [optionValue?_eq, entryOf?, Option.map_map]
  rfl

theorem nodup_entries (h : (options.map (·.identifier.text)).Nodup) :
    ((options.filterMap (env.entryOf? scope)).map (·.1)).Nodup := by
  rw [map_fst_entries]
  exact h.sublist (List.filter_sublist.map _)

/-- Options that are written differently make entries of their own. -/
theorem find?_optionsOf_eq_some_iff (h : (options.map (·.identifier.text)).Nodup) {name : String}
    {value : Value} : (env.optionsOf scope options).find? name = some value ↔
      ∃ o ∈ options, o.identifier.text = name ∧ env.optionValue? scope o.value = some value := by
  rw [optionsOf, NameMap.find?_ofList_eq_some_iff (nodup_entries h), List.mem_filterMap]
  refine exists_congr fun o => and_congr_right fun _ => ?_
  rw [entryOf?_eq, Option.map_eq_some_iff]
  constructor
  · rintro ⟨_, hvalue, heq⟩
    cases heq
    exact ⟨rfl, hvalue⟩
  · rintro ⟨rfl, hvalue⟩
    exact ⟨value, hvalue, rfl⟩

theorem size_optionsOf (h : (options.map (·.identifier.text)).Nodup) :
    (env.optionsOf scope options).size =
      options.countP fun o => (env.optionValue? scope o.value).isSome := by
  simp only [optionValue?_eq, Option.isSome_map]
  rw [NameMap.size, optionsOf, (NameMap.entries_ofList_perm (nodup_entries h)).length_eq,
    ← List.length_map (·.1), map_fst_entries, List.length_map, List.countP_eq_length_filter]

end Environment

/-- The map has an entry for each option with a value, and nothing else. -/
structure KeepsOptions (value? : Operand → Option Value) (options : List NamedOption)
    (result : Options) : Prop where
  /-- An option with a value has it under its name as written. -/
  entry : ∀ o ∈ options, ∀ value, value? o.value = some value →
    result.find? o.identifier.text = some value
  /-- An option without a value has nothing there. -/
  missing : ∀ o ∈ options, value? o.value = none → result.find? o.identifier.text = none
  /-- What there is comes from one option only. -/
  unique : ∀ name value, result.find? name = some value →
    ∃! o, o ∈ options ∧ o.identifier.text = name ∧ value? o.value = some value
  /-- There are as many entries as options with values. -/
  size : result.size = options.countP fun o => (value? o.value).isSome

theorem keepsOptions_optionsOf {env : Environment} {scope : Scope} {options : List NamedOption}
    (h : (options.map (·.identifier.text)).Nodup) :
    KeepsOptions (env.optionValue? scope) options (env.optionsOf scope options) where
  entry o ho value hvalue :=
    (Environment.find?_optionsOf_eq_some_iff h).2 ⟨o, ho, rfl, hvalue⟩
  missing o ho hnone := by
    rw [Option.eq_none_iff_forall_ne_some]
    intro value hvalue
    obtain ⟨p, hp, htext, hvalue⟩ := (Environment.find?_optionsOf_eq_some_iff h).1 hvalue
    rw [List.inj_on_of_nodup_map h hp ho htext, hnone] at hvalue
    cases hvalue
  unique name value hname := by
    obtain ⟨o, ho, htext, hvalue⟩ := (Environment.find?_optionsOf_eq_some_iff h).1 hname
    refine ⟨o, ⟨ho, htext, hvalue⟩, ?_⟩
    rintro p ⟨hp, hptext, -⟩
    exact List.inj_on_of_nodup_map h hp ho (hptext.trans htext.symm)
  size := Environment.size_optionsOf h

/-- **No option of a valid message is dropped or overwritten.**  In whatever run, the options of a
function or of markup that have values make up a map, and one that has none is as if it were not
there. -/
theorem optionMaps_exact {source : String} {m : Message} (h : parseValid source = .ok m)
    {options : List NamedOption} (hoptions : options ∈ m.optionLists) (env : Environment)
    (scope : Scope) (node : String) :
    KeepsOptions (env.optionValue? scope) options (env.resolveOptions scope node options).output ∧
      ∀ before o behind, options = before ++ o :: behind →
        env.optionValue? scope o.value = none →
        (env.resolveOptions scope node options).output =
          (env.resolveOptions scope node (before ++ behind)).output := by
  constructor
  · rw [Environment.output_resolveOptions]
    exact keepsOptions_optionsOf (nodup_optionTexts h hoptions)
  · rintro before o behind rfl hnone
    have hentry : env.entryOf? scope o = none := by rw [Environment.entryOf?_eq, hnone]; rfl
    rw [Environment.output_resolveOptions, Environment.output_resolveOptions, Environment.optionsOf,
      Environment.optionsOf, List.filterMap_append, List.filterMap_append,
      List.filterMap_cons_none hentry]

/-- Markup with two options of the same name in different namespaces, of which the latter takes its
value from a variable, and with one more that takes its value from another variable. -/
def markupSource : String := "\x7b#b a=1 n:a=$x c=$y /\x7d"

/-- The values of a caller that gives one of the two variables. -/
def markupEnvironment : Environment := .standard (.ofList [("x", .string "v")])

/-- The option of the one variable has its value, and that of the other has none. -/
theorem optionMaps_exact_markup : ∃ m options, parseValid markupSource = .ok m ∧
    options ∈ m.optionLists ∧ ∀ node,
      (markupEnvironment.resolveOptions .empty node options).output.find? "n:a" =
        some (.string "v") ∧
      (markupEnvironment.resolveOptions .empty node options).output.find? "c" = none := by
  have hlists : (parseValid markupSource).toOption.map (fun m =>
      m.optionLists.map (·.map fun o => (o.identifier.text, o.value.variableName?))) =
        some [[("a", none), ("n:a", some "x"), ("c", some "y")]] := by decide +kernel
  obtain ⟨m, hparse, hlists⟩ := exists_eq_ok_of_map_toOption hlists
  obtain ⟨options, hoptions, hnames⟩ := List.map_eq_singleton_iff.1 hlists
  have hmem : options ∈ m.optionLists := by rw [hoptions]; exact List.mem_cons_self
  have hvalue : ∀ name x, (name, some x) ∈ [("a", none), ("n:a", some "x"), ("c", some "y")] →
      ∃ o ∈ options, o.identifier.text = name ∧ o.value = .variableName x := by
    intro name x hpair
    rw [← hnames] at hpair
    obtain ⟨o, ho, hpair⟩ := List.mem_map.1 hpair
    obtain ⟨hname, hread⟩ := Prod.mk.inj hpair
    exact ⟨o, ho, hname, Operand.variableName?_eq_some_iff.1 hread⟩
  refine ⟨m, options, hparse, hmem, fun node => ?_⟩
  obtain ⟨hkeeps, -⟩ := optionMaps_exact hparse hmem markupEnvironment .empty node
  obtain ⟨o, ho, hname, hx⟩ := hvalue "n:a" "x" (by simp)
  obtain ⟨p, hp, hname', hy⟩ := hvalue "c" "y" (by simp)
  refine ⟨?_, ?_⟩
  · rw [← hname]
    exact hkeeps.entry o ho _ (by rw [hx]; rfl)
  · rw [← hname']
    exact hkeeps.missing p hp (by rw [hy]; rfl)

/-- The names of the options that a part of the output shows. -/
def FormattedPart.optionNames : FormattedPart → List String
  | .markup _ _ options => options.names
  | _ => []

/-- Markup that takes an option from a variable whose declaration fails. -/
def hiddenSource : String := ".input \x7b$x :number\x7d \x7b\x7b\x7b#b o=$x /\x7d\x7d\x7d"

/-- A variable that is present in the input does not resolve if its declaration has failed. -/
theorem not_option_of_hidden :
    (parseValid hiddenSource).toOption.map (fun m =>
        m.optionLists.map (·.map fun o => (o.identifier.text, o.value.variableName?))) =
      some [[], [("o", some "x")]] ∧
    ((Environment.standard (.ofList [("x", .string "abc")])).input.contains "x") = true ∧
    (formatToParts hiddenSource (.ofList [("x", .string "abc")])).toOption.map
        (·.output.map FormattedPart.optionNames) = some [[]] := by
  decide +kernel

end MessageFormat
