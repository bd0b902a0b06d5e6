import MessageFormat.Text.Quoted
import MessageFormat.Text.WhiteSpace
import MessageFormat.Binary64.Printing
import MessageFormat.Binary64.Reading

/-!
# Runtime values

The values that a caller binds to variables and that functions return, with their plain text and
their meaning as numbers.
-/

namespace MessageFormat

/-- A value of a variable or of a function. -/
inductive Value where
  /-- The absence of a value. -/
  | null
  /-- A truth value. -/
  | bool (b : Bool)
  /-- An integer of 64 bits. -/
  | int (n : Int64)
  /-- A floating-point number. -/
  | float (x : Binary64)
  /-- A text. -/
  | string (s : String)
deriving BEq

namespace Value

instance : Inhabited Value := ⟨null⟩

/-- The plain text of the value; that of null is empty. -/
def text : Value → String
  | null => ""
  | bool b => if b then "true" else "false"
  | int n => n.toInt.repr
  | float x => x.text
  | string s => s

/-- The name of the type of the value. -/
def typeName : Value → String
  | null => "null"
  | bool _ => "bool"
  | int _ => "int"
  | float _ => "float"
  | string _ => "string"

/-- The value with its type, as an error message shows it. -/
def shown : Value → String
  | null => "Null"
  | bool b => "Bool(" ++ (bool b).text ++ ")"
  | int n => "Int(" ++ (int n).text ++ ")"
  | float x => "Float(" ++ x.shownText ++ ")"
  | string s => "String(" ++ quoteText s ++ ")"

/-- Whether this is the null value. -/
def isNull : Value → Bool
  | null => true
  | _ => false

/-- The truth value, if this is one. -/
def toBool? : Value → Option Bool
  | bool b => some b
  | _ => none

/-- The integer, if this is one. -/
def toInt64? : Value → Option Int64
  | int n => some n
  | _ => none

/-- The floating-point number, if this is one. -/
def toBinary64? : Value → Option Binary64
  | float x => some x
  | _ => none

/-- The text, if this is one. -/
def toString? : Value → Option String
  | string s => some s
  | _ => none

/-- The value as a number: an integer as the number nearest to it, a text as the finite number that
it means when trimmed. -/
def toNumber? : Value → Option Binary64
  | int n => some (.ofInt n.toInt)
  | float x => some x
  | string s => (Binary64.ofText? (trimWhiteSpace s.toList)).filter Binary64.isFinite
  | null | bool _ => none

end Value

end MessageFormat
