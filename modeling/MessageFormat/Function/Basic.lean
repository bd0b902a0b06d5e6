import MessageFormat.NameMap
import MessageFormat.Value
import MessageFormat.Error

/-!
# Functions

What a message calls by name: a function formats an operand, and may also select among the keys of a
matcher.  Functions are kept in a registry, which a message is resolved against.
-/

namespace MessageFormat

/-- A locale, by its tag. -/
structure Locale where
  /-- The tag: a language, and possibly more behind hyphens. -/
  tag : String
deriving DecidableEq, Repr

namespace Locale

/-- The locale that is meant where none is given. -/
def default : Locale := ⟨"en"⟩

instance : Inhabited Locale := ⟨default⟩

end Locale

/-- The options of a call, by name. -/
abbrev Options : Type := NameMap Value

/-- A function that messages can call. -/
structure MessageFunction where
  /-- Formats an operand, which may be missing. -/
  format : Option Value → Options → Locale → Except Error Value
  /-- Selects among keys: those that the operand matches, the best first. -/
  select? : Option (Value → Options → List String → Locale → Except Error (List String)) := none

/-- Whether the function can select. -/
def MessageFunction.canSelect (function : MessageFunction) : Bool := function.select?.isSome

/-- Functions by the names that messages call them by. -/
abbrev Registry : Type := NameMap MessageFunction

end MessageFormat
