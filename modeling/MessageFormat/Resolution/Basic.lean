import MessageFormat.Function.Basic
import MessageFormat.Message.Basic

/-!
# Resolutions

Formatting a message never fails as a whole: what cannot be formatted is replaced by a fallback, and
the errors are reported beside the output.  A `Resolution` is an output with the errors that were
reported on the way to it, in order.

* `Resolution.output_mapM`, `Resolution.errors_mapM` : resolving the items of a list gives the
  outputs of the items, and reports the errors of each in turn.
-/

namespace MessageFormat

/-- An output and the errors that were reported on the way to it. -/
structure Resolution (α : Type) where
  /-- The output. -/
  output : α
  /-- The errors, in the order in which they were reported. -/
  errors : List Error

namespace Resolution

variable {α β : Type}

instance : Monad Resolution where
  pure a := ⟨a, []⟩
  bind x f := ⟨(f x.output).output, x.errors ++ (f x.output).errors⟩

/-- Reports an error. -/
def report (error : Error) : Resolution Unit := ⟨(), [error]⟩

/-- Whether no error was reported. -/
def isClean (x : Resolution α) : Bool := x.errors.isEmpty

/-- The output, or the first error if there is one. -/
def toExcept (x : Resolution α) : Except Error α :=
  match x.errors with
  | [] => .ok x.output
  | error :: _ => .error error

@[ext]
theorem ext {x y : Resolution α} (output : x.output = y.output) (errors : x.errors = y.errors) :
    x = y := by
  cases x
  cases y
  simp_all

@[simp]
theorem output_pure (a : α) : (pure a : Resolution α).output = a := rfl

@[simp]
theorem errors_pure (a : α) : (pure a : Resolution α).errors = [] := rfl

@[simp]
theorem output_bind (x : Resolution α) (f : α → Resolution β) :
    (x >>= f).output = (f x.output).output := rfl

@[simp]
theorem errors_bind (x : Resolution α) (f : α → Resolution β) :
    (x >>= f).errors = x.errors ++ (f x.output).errors := rfl

@[simp]
theorem output_report (error : Error) : (report error).output = () := rfl

@[simp]
theorem errors_report (error : Error) : (report error).errors = [error] := rfl

@[simp]
theorem output_map (f : α → β) (x : Resolution α) : (f <$> x).output = f x.output := rfl

@[simp]
theorem errors_map (f : α → β) (x : Resolution α) : (f <$> x).errors = x.errors :=
  List.append_nil _

instance : LawfulMonad Resolution := .mk' Resolution
  (fun x => by ext1 <;> simp)
  (fun a f => by ext1 <;> simp)
  (fun x f g => by ext1 <;> simp)

theorem output_mapM (f : α → Resolution β) (items : List α) :
    (items.mapM f).output = items.map fun a => (f a).output := by
  induction items with
  | nil => rfl
  | cons a rest ih => simp [ih]

theorem errors_mapM (f : α → Resolution β) (items : List α) :
    (items.mapM f).errors = items.flatMap fun a => (f a).errors := by
  induction items with
  | nil => rfl
  | cons a rest ih => simp [ih]

/-- What a run leaves does not depend on what it reports. -/
theorem output_foldlM (f : β → α → Resolution β) (b : β) (items : List α) :
    (items.foldlM f b).output = items.foldl (fun b a => (f b a).output) b := by
  induction items generalizing b with
  | nil => rfl
  | cons a rest ih => simp [ih]

end Resolution

/-! ### Formatted messages -/

/-- A part of a formatted message. -/
inductive FormattedPart where
  /-- Text of the pattern. -/
  | text (text : String)
  /-- The text of a value. -/
  | expression (text : String)
  /-- What stands for a value that cannot be formatted. -/
  | fallback (text : String)
  /-- Markup, for the caller to interpret. -/
  | markup (kind : MarkupKind) (name : String) (options : Options)
deriving BEq

/-- The choices of a caller about formatting. -/
structure Settings where
  /-- The locale that functions are called with. -/
  locale : Locale := .default
  /-- Whether placeholders are isolated from the direction of the text around them. -/
  isolates : Bool := false
deriving DecidableEq, Repr

namespace Settings

/-- The text of a placeholder: between U+2068 and U+2069, if placeholders are isolated. -/
def isolate (settings : Settings) (text : String) : String :=
  if settings.isolates then "\u2068" ++ text ++ "\u2069" else text

/-- The text of a part; markup has none. -/
def partText (settings : Settings) : FormattedPart → String
  | .text text => text
  | .expression text | .fallback text => settings.isolate text
  | .markup .. => ""

/-- The text of all parts together. -/
def join (settings : Settings) (parts : List FormattedPart) : String :=
  String.join (parts.map settings.partText)

end Settings

end MessageFormat
