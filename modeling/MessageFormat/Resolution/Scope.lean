import MessageFormat.Function.Basic

/-!
# Scopes

What the declarations of a message bind their variables to.  A value is bound together with the call
that will format it, so that a later call or a selector can take both up.
-/

namespace MessageFormat

/-- A call of a function whose options are resolved. -/
structure Call where
  /-- The name of the function. -/
  name : String
  /-- The values of the options. -/
  options : Options := .empty
deriving BEq

/-- What an expression resolves to: an operand and the call that formats it. -/
structure Resolved where
  /-- The operand, which may be missing. -/
  operand : Option Value
  /-- The call; without one, the operand stands for itself. -/
  call : Option Call := none
deriving BEq

namespace Resolved

/-- A value that stands for itself. -/
def ofValue (value : Value) : Resolved := ⟨some value, none⟩

/-- The operand, or null if it is missing. -/
def operandOrNull (resolved : Resolved) : Value := resolved.operand.getD .null

/-- The operand with a call.  A call of the function that the operand is called with already keeps
the options of that call, and its own options win over them. -/
def withCall (name : String) (options : Options) : Option Resolved → Resolved
  | none => ⟨none, some ⟨name, options⟩⟩
  | some ⟨operand, earlier⟩ =>
    let kept := (earlier.filter (·.name == name)).elim .empty (·.options)
    ⟨operand, some ⟨name, kept.update options⟩⟩

end Resolved

/-- What a variable is bound to. -/
inductive Binding where
  /-- What its declaration resolved to. -/
  | value (resolved : Resolved)
  /-- What stands for a value that could not be resolved. -/
  | fallback (text : String)
deriving BEq

/-- The variables that are bound. -/
abbrev Scope : Type := NameMap Binding

end MessageFormat
