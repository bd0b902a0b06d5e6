import MessageFormat.Plural.Basic
import MessageFormat.Text.Name

/-!
# The functions `:number` and `:integer`

Both format a number with a limited count of digits behind the point, which is zero for integers.
They select the keys that are numerically equal to the number as formatted, and after them the name
of its plural category, which a library of plural rules tells.

* `NumberStyle.format` : the text of a number in a style;
* `NumberFunction.selectAmong` : the keys that a number matches.
-/

namespace MessageFormat

/-- The two functions for numbers. -/
inductive NumberFunction where
  /-- Formats with the digits behind the point that its options ask for. -/
  | number
  /-- Formats without digits behind the point. -/
  | integer
deriving DecidableEq, Repr

/-- The name that messages call the function by. -/
def NumberFunction.name : NumberFunction → String
  | number => "number"
  | integer => "integer"

/-- How keys are matched. -/
inductive KeyMatching where
  /-- By equality alone. -/
  | exact
  /-- By equality, or else by the name of the plural category. -/
  | plural (kind : PluralKind)
deriving DecidableEq, Repr

/-- How a number is formatted and matched. -/
structure NumberStyle where
  /-- The least count of digits behind the point. -/
  minimum : Nat
  /-- The greatest count of digits behind the point. -/
  maximum : Nat
  /-- How keys are matched. -/
  matching : KeyMatching
deriving DecidableEq, Repr

/-! ### Options -/

namespace NumberFunction

/-- The greatest count of digits that an option may ask for. -/
def maximumDigits : Nat := 20

/-- The count of digits that an option asks for. -/
def readDigits (function : NumberFunction) (options : Options) (name : String) (missing : Nat) :
    Except Error Nat :=
  match options.find? name with
  | none => .ok missing
  | some value =>
    match value.toNumber?.bind Binary64.toInt? with
    | some count =>
      if 0 ≤ count ∧ count ≤ maximumDigits then .ok count.toNat else refused value
    | none => refused value
where
  /-- The error of a value that is no count of digits. -/
  refused (value : Value) : Except Error Nat :=
    .error (.ofCause (.badOption function.name
      (name ++ " must be an integer from 0 to " ++ maximumDigits.repr ++ ", got " ++ value.text)))

/-- How an option says that keys are matched. -/
def readMatching (function : NumberFunction) (options : Options) : Except Error KeyMatching :=
  match (options.find? "select").map Value.text with
  | none | some "plural" => .ok (.plural .cardinal)
  | some "ordinal" => .ok (.plural .ordinal)
  | some "exact" => .ok .exact
  | some other =>
    .error (.ofCause (.badOption function.name
      ("select must be plural, ordinal or exact, got " ++ other)))

/-- The style that the options ask for.  The greatest count of digits is raised to the least one. -/
def readStyle (function : NumberFunction) (options : Options) : Except Error NumberStyle := do
  let matching ← function.readMatching options
  match function with
  | integer => return ⟨0, 0, matching⟩
  | number =>
    let minimum ← readDigits number options "minimumFractionDigits" 0
    let maximum ← readDigits number options "maximumFractionDigits" 3
    return ⟨minimum, max maximum minimum, matching⟩

end NumberFunction

/-! ### Formatting -/

/-- The digits behind the point without the zeros at their end, but with at least `minimum` of
them. -/
def trimZeros (minimum : Nat) (digits : List Char) : List Char :=
  digits.take minimum ++ ((digits.drop minimum).reverse.dropWhile (· == '0')).reverse

/-- The text of a number without needless zeros behind the point, and without the point if nothing
is left behind it. -/
def trimFraction (minimum : Nat) (text : List Char) : List Char :=
  match text.dropWhile (· != '.') with
  | [] => text
  | point :: digits =>
    let kept := trimZeros minimum digits
    text.takeWhile (· != '.') ++ (if kept.isEmpty then [] else point :: kept)

/-- The text of a number in a style. -/
def NumberStyle.format (style : NumberStyle) (x : Binary64) : String :=
  String.ofList
    (trimFraction style.minimum ((x.roundTo style.maximum).fixedText style.maximum).toList)

namespace NumberFunction

/-- The finite number that a value is. -/
def operand? (value : Value) : Option Binary64 := value.toNumber?.filter Binary64.isFinite

/-- Formats an operand. -/
def format (function : NumberFunction) (operand : Option Value) (options : Options) :
    Except Error Value :=
  match operand.bind operand? with
  | some x => do
    let style ← function.readStyle options
    return .string (style.format x)
  | none =>
    let found := match operand with
      | some value => value.typeName ++ " " ++ value.shown
      | none => "no operand"
    .error (.ofCause (.badOperand function.name ("expected a number, found " ++ found)))

end NumberFunction

/-! ### Selection -/

/-- Whether a key is a number literal of the given value. -/
def isKeyOf (x : Binary64) (key : String) : Bool :=
  isNumberLiteral key && (Binary64.ofText? key.toList).any (· == x)

/-- Whether a key can be matched by numbers: a number literal or the name of a plural category. -/
def isNumericKey (key : String) : Bool := isNumberLiteral key || PluralCategory.isName key

namespace NumberFunction

variable (plurals : PluralLibrary) (function : NumberFunction)

/-- The plural category of a number that is given by its text.  Why there is none is said with the
locale if it has no rules, and with the text if they cannot read it. -/
def category (kind : PluralKind) (locale : Locale) (text : String) :
    Except Error PluralCategory := do
  let rules ← (plurals.rulesFor kind locale).mapError (refused locale.tag)
  (rules text).mapError (refused text)
where
  /-- The error that a library of rules has a reason for. -/
  refused (shown reason : String) : Error :=
    .ofCause (.badSelector function.name (reason ++ " (" ++ shown ++ ")"))

/-- The keys that a number matches in a style: those of its value, and after them the name of its
plural category. -/
def selectAmong (style : NumberStyle) (x : Binary64) (keys : List String) (locale : Locale) :
    Except Error (List String) :=
  let text := style.format x.abs
  let rounded := ((Binary64.ofText? text.toList).getD x.abs).withSign x.isNegative
  match keys.find? (!isNumericKey ·) with
  | some key => .error (.ofCause (.badKey function.name key))
  | none =>
    let equal := keys.filter (isKeyOf rounded)
    match style.matching with
    | .exact => .ok equal
    | .plural kind =>
      if keys.any (!isNumberLiteral ·) then do
        let category ← function.category plurals kind locale text
        return equal ++ (if category.name ∈ keys then [category.name] else [])
      else .ok equal

/-- Selects among keys. -/
def select (value : Value) (options : Options) (keys : List String) (locale : Locale) :
    Except Error (List String) :=
  match operand? value with
  | some x => do
    let style ← function.readStyle options
    function.selectAmong plurals style x keys locale
  | none =>
    .error (.ofCause (.badSelector function.name
      ("expected a number, found " ++ value.shown)))

/-- The function for messages. -/
def toFunction : MessageFunction where
  format operand options _ := function.format operand options
  select? := some fun value options keys locale =>
    function.select plurals value options keys locale

end NumberFunction

end MessageFormat
