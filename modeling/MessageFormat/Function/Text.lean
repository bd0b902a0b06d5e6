import MessageFormat.Function.Basic

/-!
# The function `:string`

Formats a value as its plain text and selects the keys that are equal to it.
-/

namespace MessageFormat

/-- Plain text, and selection by equal text. -/
def textFunction : MessageFunction where
  format operand _ _ := .ok (.string (operand.elim "" Value.text))
  select? := some fun value _ keys _ => .ok (keys.filter (· == value.text))

end MessageFormat
