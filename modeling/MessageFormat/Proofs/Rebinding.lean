import MessageFormat.Proofs.Validity

/-!
# Binding a variable anew

A declaration should bind a variable of which nothing has been heard before: no earlier declaration
binds it or takes its value, and it is not made from its own value.  The operand of an input
declaration is the variable that it binds, and not a value that it takes; the values of its options
are.

* `bindsAnew_iff` : the rule, taken apart into one of pairs and one of single declarations;
* `bindsAnew_iff_of_validate` : in a valid message only an input declaration can break the rule, and
  only by an option that takes the value of its own variable.
-/

namespace MessageFormat

/-- The variables whose values the options of the function take. -/
def Expression.optionReads (e : Expression) : List String :=
  e.options.filterMap (·.value.variableName?)

/-- The variables whose values a declaration takes in order to bind its own. -/
def Declaration.sources : Declaration → List String
  | input e => e.optionReads
  | assign _ e => e.reads
  | reserved statement => statement.expressions.flatMap Expression.reads

/-- Every declaration binds a variable that the ones before it neither bind nor read, and that it is
not made from itself. -/
def BindsAnew (declarations : List Declaration) : Prop :=
  ∀ before d behind, declarations = before ++ d :: behind →
    (∀ earlier ∈ before, earlier.Spares d) ∧ ∀ name ∈ d.boundName?, name ∉ d.sources

theorem bindsAnew_iff {declarations : List Declaration} :
    BindsAnew declarations ↔ declarations.Pairwise Declaration.Spares ∧
      ∀ d ∈ declarations, ∀ name ∈ d.boundName?, name ∉ d.sources := by
  rw [pairwise_iff_forall_before]
  constructor
  · intro h
    refine ⟨fun before d behind hsplit => (h before d behind hsplit).1, fun d hd => ?_⟩
    obtain ⟨before, behind, hsplit⟩ := List.append_of_mem hd
    exact (h before d behind hsplit).2
  · rintro ⟨hspares, hsources⟩ before d behind rfl
    exact ⟨hspares before d behind rfl, hsources d (by simp)⟩

/-- A sound declaration makes a variable from its own value only if it is an input declaration. -/
theorem Declaration.IsSound.eq_input_of_mem_sources {d : Declaration} (h : d.IsSound)
    {name : String} (hname : d.boundName? = some name) (hmem : name ∈ d.sources) :
    ∃ e, d = .input e ∧ e.variableName? = some name ∧ name ∈ e.optionReads := by
  cases d with
  | input e => exact ⟨e, rfl, hname, hmem⟩
  | assign made e =>
    obtain rfl := Option.some.inj hname
    exact absurd hmem (h.unread made e rfl)
  | reserved statement => cases hname

/-- **What the declarations of a valid message bind anew.**  The earlier declarations neither bind
nor read the variable of a later one, and a variable that is made from its own value is that of an
input declaration, through an option.  Where there is no such option, the rule holds. -/
theorem bindsAnew_iff_of_validate {declarations : List Declaration} {body : MessageBody}
    (h : (Message.complex declarations body).validate = .ok ()) :
    (∀ before d behind, declarations = before ++ d :: behind →
      (∀ earlier ∈ before, earlier.Spares d) ∧ ∀ name ∈ d.boundName?, name ∈ d.sources →
        ∃ e, d = .input e ∧ e.variableName? = some name ∧ name ∈ e.optionReads) ∧
      (BindsAnew declarations ↔ ∀ e, .input e ∈ declarations →
        ∀ name ∈ e.variableName?, name ∉ e.optionReads) := by
  obtain ⟨⟨hsound, hspares⟩, -⟩ := Message.validate_eq_ok_iff.1 h
  refine ⟨?_, ?_⟩
  · intro before d behind hsplit
    have hd : d ∈ declarations := by
      rw [hsplit]
      exact List.mem_append_right before List.mem_cons_self
    exact ⟨pairwise_iff_forall_before.1 hspares before d behind hsplit, fun name hname hmem =>
      (hsound d hd).eq_input_of_mem_sources hname hmem⟩
  · rw [bindsAnew_iff]
    constructor
    · rintro ⟨-, hsources⟩ e he name hname
      exact hsources _ he name hname
    · intro hinput
      refine ⟨hspares, fun d hd name hname hmem => ?_⟩
      obtain ⟨e, rfl, hbound, hoption⟩ := (hsound d hd).eq_input_of_mem_sources hname hmem
      exact hinput e hd name hbound hoption

/-- The expression `{$x :number minimumFractionDigits=$n}`, for a name `n`. -/
def withDigits (n : String) : Expression where
  operand := some (.variableName "x")
  directive := some (.function ⟨⟨none, "number"⟩,
    [⟨⟨none, "minimumFractionDigits"⟩, .variableName n⟩]⟩)

/-- With an option of another name, the variable is bound anew. -/
theorem bindsAnew_withDigits :
    (Message.complex [.input (withDigits "n")] (.pattern [])).validate = .ok () ∧
      BindsAnew [.input (withDigits "n")] := by
  have hvalid : (Message.complex [.input (withDigits "n")] (.pattern [])).validate = .ok () := rfl
  refine ⟨hvalid, (bindsAnew_iff_of_validate hvalid).2.2 fun e he name hname => ?_⟩
  obtain rfl : e = withDigits "n" := by simpa using he
  obtain rfl : "x" = name := Option.some.inj hname
  decide

/-- With an option of its own name, it is not, and yet the message is valid. -/
theorem not_bindsAnew_withDigits :
    ¬ ∀ declarations body, (Message.complex declarations body).validate = .ok () →
      BindsAnew declarations := by
  intro h
  exact (h [.input (withDigits "x")] (.pattern []) rfl [] _ [] rfl).2 "x" rfl List.mem_cons_self

end MessageFormat
