import MessageFormat.Function.Standard
import MessageFormat.Message.Parsing
import MessageFormat.Resolution.Formatting

/-!
# Formatting source texts

From the source text of a message to its output in one step, with the standard functions and default
settings.
-/

namespace MessageFormat

/-- The environment of the standard functions and the given values. -/
def Environment.standard (input : NameMap Value) : Environment := ⟨.standard, input, {}⟩

/-- The text of the message that a source text spells out. -/
def format (source : String) (input : NameMap Value) : Except Error (Resolution String) :=
  (parseValid source).map (Environment.standard input).format

/-- The parts of the message that a source text spells out. -/
def formatToParts (source : String) (input : NameMap Value) :
    Except Error (Resolution (List FormattedPart)) :=
  (parseValid source).map (Environment.standard input).formatToParts

end MessageFormat
