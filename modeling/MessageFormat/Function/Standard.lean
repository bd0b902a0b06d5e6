import MessageFormat.Function.Number
import MessageFormat.Function.Text
import MessageFormat.Plural.Rules

/-!
# The standard functions

The functions that every message may call.  Those for numbers take their plural rules from a
library; the ones that are registered take them from the library that is built in.
-/

namespace MessageFormat

/-- The standard functions by their names, with the plural rules of a library. -/
def PluralLibrary.standardFunctions (plurals : PluralLibrary) : List (String × MessageFunction) :=
  [("string", textFunction),
    (NumberFunction.number.name, NumberFunction.number.toFunction plurals),
    (NumberFunction.integer.name, NumberFunction.integer.toFunction plurals)]

/-- The standard functions by their names. -/
def standardFunctions : List (String × MessageFunction) := PluralLibrary.builtIn.standardFunctions

namespace Registry

/-- The registry with some functions, in the stead of others of their names. -/
def withFunctions (registry : Registry) (functions : List (String × MessageFunction)) : Registry :=
  functions.foldl (fun registry (name, function) => registry.insert name function) registry

/-- The registry with the standard functions, in the stead of others of their names. -/
def withStandard (registry : Registry) : Registry := registry.withFunctions standardFunctions

/-- The registry of the standard functions. -/
def standard : Registry := withStandard .empty

end Registry

end MessageFormat
