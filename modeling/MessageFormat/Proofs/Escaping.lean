import MessageFormat.Formatting
import MessageFormat.Proofs.RoundTrip

/-!
# Escaped text comes back

Text that is escaped and made a message of, in one way or another, is formatted as the text it was.
Between bars this holds of literals: what the text of a literal is read as has the same value, even
if it was a name or a number that has to be quoted.

* `format_print` : the source text of a message is formatted as the message is;
* `Literal.reread` : what the text of a literal is read as;
* `escaping_exact` : texts and literals come back from their source texts.
-/

namespace MessageFormat

/-! ### From well-shaped messages to output -/

/-- A source text that is read as a valid message is formatted as the message is. -/
theorem format_of_parse {source : String} {m : Message} (h : parse source = .ok m)
    (hvalid : m.validate = .ok ()) (input : NameMap Value) :
    format source input = .ok ((Environment.standard input).format m) := by
  have hparse : parseValid source = .ok m := by
    rw [parseValid, h]
    show (do m.validate; return m) = Except.ok m
    rw [hvalid]
    rfl
  rw [format, hparse]
  rfl

/-- The source text of a well-shaped and valid message is formatted as the message is. -/
theorem format_print {m : Message} (h : m.WellShaped) (hvalid : m.validate = .ok ())
    (input : NameMap Value) :
    format m.print input = .ok ((Environment.standard input).format m) :=
  format_of_parse h.parse_print hvalid input

/-! ### Text -/

/-- The pattern of some text, which has no part if the text has no character. -/
def plainPattern (text : String) : Pattern := if text = "" then [] else [.text text]

theorem print_plainPattern (text : String) :
    Pattern.print (plainPattern text) = escapeText text := by
  unfold plainPattern
  split
  · rename_i hempty
    rw [hempty]
    rfl
  · simp [Pattern.print, PatternPart.print]

theorem wellShaped_plainPattern {text : String} (h : '\x00' ∉ text.toList) :
    Pattern.WellShaped (plainPattern text) := by
  unfold plainPattern
  split
  · exact ⟨nofun, .nil⟩
  · rename_i hne
    exact ⟨List.forall_mem_singleton.2 (.text hne h), .singleton _⟩

theorem check_plainPattern (text : String) : Pattern.check (plainPattern text) = .ok () := by
  unfold plainPattern
  split <;> rfl

theorem beginsWithPoint_plainPattern {text : String} (h : beginsWithPoint text.toList = false) :
    Pattern.beginsWithPoint (plainPattern text) = false := by
  unfold plainPattern
  split
  · rfl
  · exact h

/-- Text is formatted as itself, in every environment. -/
theorem Environment.join_formatPattern_plainPattern (env : Environment) (scope : Scope)
    (text : String) :
    env.settings.join <$> env.formatPattern scope (plainPattern text) = ⟨text, []⟩ := by
  unfold plainPattern
  split
  · rename_i hempty
    rw [hempty]
    rfl
  · ext1 <;> simp [formatPattern, formatPart, Settings.join, Settings.partText]

theorem print_quoted_plainPattern (text : String) :
    (Message.complex [] (.pattern (plainPattern text))).print =
      "\x7b\x7b" ++ escapeText text ++ "\x7d\x7d" := by
  rw [← print_plainPattern]
  exact String.empty_append

theorem validate_quoted_plainPattern (text : String) :
    (Message.complex [] (.pattern (plainPattern text))).validate = .ok () := by
  simp [Message.validate, eachAfter, MessageBody.check, check_plainPattern]

theorem validate_plainPattern (text : String) :
    (Message.simple (plainPattern text)).validate = .ok () :=
  within_eq_ok_iff.2 (check_plainPattern text)

/-- Between double braces, escaped text is read as the text. -/
theorem parse_quoted_escapeText {text : String} (h : '\x00' ∉ text.toList) :
    parse ("\x7b\x7b" ++ escapeText text ++ "\x7d\x7d") =
      .ok (.complex [] (.pattern (plainPattern text))) := by
  have hshaped : (Message.complex [] (.pattern (plainPattern text))).WellShaped :=
    .complex nofun (.pattern (wellShaped_plainPattern h))
  rw [← print_quoted_plainPattern, hshaped.parse_print]

/-- Unless it begins with a point, escaped text is also read as the text without them. -/
theorem parse_escapeText {text : String} (h : '\x00' ∉ text.toList)
    (hpoint : beginsWithPoint text.toList = false) :
    parse (escapeText text) = .ok (.simple (plainPattern text)) := by
  have hshaped : (Message.simple (plainPattern text)).WellShaped :=
    .simple (wellShaped_plainPattern h) (beginsWithPoint_plainPattern hpoint)
  have hprint : (Message.simple (plainPattern text)).print = escapeText text := by
    rw [Message.print, beginsWithPoint_plainPattern hpoint, ← print_plainPattern]
    rfl
  rw [← hprint, hshaped.parse_print]

theorem format_quoted_escapeText {text : String} (h : '\x00' ∉ text.toList)
    (input : NameMap Value) :
    format ("\x7b\x7b" ++ escapeText text ++ "\x7d\x7d") input = .ok ⟨text, []⟩ := by
  rw [format_of_parse (parse_quoted_escapeText h) (validate_quoted_plainPattern text)]
  exact congrArg Except.ok ((Environment.standard input).join_formatPattern_plainPattern _ text)

theorem format_escapeText {text : String} (h : '\x00' ∉ text.toList)
    (hpoint : beginsWithPoint text.toList = false) (input : NameMap Value) :
    format (escapeText text) input = .ok ⟨text, []⟩ := by
  rw [format_of_parse (parse_escapeText h hpoint) (validate_plainPattern text)]
  exact congrArg Except.ok ((Environment.standard input).join_formatPattern_plainPattern _ text)

/-! ### Literals -/

/-- What the text of a literal is read as: a name or a number that is quoted there is read as a
quoted text. -/
def Literal.reread : Literal → Literal
  | name text => if isName text then name text else quoted text
  | number n => if isNumberLiteral n.source then number (.ofSource n.source) else quoted n.source
  | quoted text => quoted text

namespace Literal

theorem value_reread (l : Literal) : l.reread.value = l.value := by
  cases l with
  | quoted text => rfl
  | name text =>
    rw [reread]
    split <;> rfl
  | number n =>
    rw [reread]
    split <;> rfl

theorem print_reread (l : Literal) : l.reread.print = l.print := by
  cases l with
  | quoted text => rfl
  | name text =>
    by_cases h : isName text = true <;> simp [reread, print, h]
  | number n =>
    by_cases h : isNumberLiteral n.source = true <;> simp [reread, print, NumberLiteral.ofSource, h]

theorem wellShaped_reread {l : Literal} (h : '\x00' ∉ l.value.toList) : l.reread.WellShaped := by
  cases l with
  | quoted text => exact .quoted h
  | name text =>
    rw [reread]
    split
    · exact .name ‹_›
    · exact .quoted h
  | number n =>
    rw [reread]
    split
    · exact .number ‹_›
    · exact .quoted h

/-- The message with one placeholder, for the literal. -/
def message (l : Literal) : Message := .simple [.expression { operand := some (.literal l) }]

theorem print_message (l : Literal) : l.message.print = "\x7b" ++ l.print ++ "\x7d" := by
  simp [message, Message.print, Pattern.beginsWithPoint, Pattern.print, PatternPart.print,
    Expression.print, Operand.print, printAttributes]

theorem WellShaped.message {l : Literal} (h : l.WellShaped) : l.message.WellShaped :=
  .simple ⟨List.forall_mem_singleton.2 (.expression
    ⟨⟨nofun, fun o ho => by cases ho; exact .literal h, nofun⟩, nofun⟩), .singleton _⟩ rfl

/-- Of a placeholder for a literal, the text is read as the same or one of the same value. -/
theorem parse_print_message {l : Literal} (h : '\x00' ∉ l.value.toList) :
    parse l.message.print = .ok l.reread.message := by
  rw [print_message, ← print_reread, ← print_message]
  exact (wellShaped_reread h).message.parse_print

end Literal

/-- A literal is formatted as its value. -/
theorem Environment.format_message (input : NameMap Value) (l : Literal) :
    (Environment.standard input).format l.message = ⟨l.value, []⟩ := by
  refine Resolution.ext ?_ rfl
  show String.join [l.value] = l.value
  simp

theorem format_escapeQuoted {text : String} (h : '\x00' ∉ text.toList) (input : NameMap Value) :
    format ("\x7b|" ++ escapeQuoted text ++ "|\x7d") input = .ok ⟨text, []⟩ := by
  have hprint : (Literal.quoted text).message.print = "\x7b|" ++ escapeQuoted text ++ "|\x7d" := by
    have hopen : "\x7b|" = "\x7b" ++ "|" := rfl
    have hclose : "|\x7d" = "|" ++ "\x7d" := rfl
    rw [Literal.print_message, Literal.print, printQuoted, hopen, hclose]
    simp only [String.append_assoc]
  rw [← hprint, format_print (Literal.WellShaped.quoted h).message rfl]
  exact congrArg Except.ok (Environment.format_message input (.quoted text))

/-- **Escaping is exact.**  A text comes back from between double braces, from a simple message
unless it begins with a point, and from between bars; and a literal comes back from its text, as one
of the same value. -/
theorem escaping_exact :
    (∀ (text : String) (input : NameMap Value), '\x00' ∉ text.toList →
      format ("\x7b\x7b" ++ escapeText text ++ "\x7d\x7d") input = .ok ⟨text, []⟩ ∧
      ((text.toList.dropWhile isBlank).head? ≠ some '.' →
        format (escapeText text) input = .ok ⟨text, []⟩) ∧
      format ("\x7b|" ++ escapeQuoted text ++ "|\x7d") input = .ok ⟨text, []⟩) ∧
    ∀ l : Literal, '\x00' ∉ l.value.toList → ∃ other : Literal, other.value = l.value ∧
      parse (Message.simple [.expression { operand := some (.literal l) }]).print =
        .ok (.simple [.expression { operand := some (.literal other) }]) := by
  refine ⟨fun text input h => ⟨format_quoted_escapeText h input, fun hpoint => ?_,
    format_escapeQuoted h input⟩, fun l h => ?_⟩
  · exact format_escapeText h (beq_false_of_ne hpoint) input
  · exact ⟨l.reread, l.value_reread, Literal.parse_print_message h⟩

/-- A text of what has to be escaped in one place or another. -/
def delimiters : String := "|\x7b\\\x7d| ."

/-- What is no number by its spelling comes back as a text between bars. -/
theorem escaping_exact_delimiters :
    '\x00' ∉ delimiters.toList ∧ (delimiters.toList.dropWhile isBlank).head? ≠ some '.' ∧
      format ("\x7b\x7b" ++ escapeText delimiters ++ "\x7d\x7d") .empty = .ok ⟨delimiters, []⟩ ∧
      format (escapeText delimiters) .empty = .ok ⟨delimiters, []⟩ ∧
      format ("\x7b|" ++ escapeQuoted delimiters ++ "|\x7d") .empty = .ok ⟨delimiters, []⟩ ∧
      '\x00' ∉ (Literal.number ⟨"01", .nan⟩).value.toList ∧
      ∃ other : Literal, other.value = "01" ∧
        parse (Message.simple
          [.expression { operand := some (.literal (.number ⟨"01", .nan⟩)) }]).print =
            .ok (.simple [.expression { operand := some (.literal other) }]) := by
  have hnul : '\x00' ∉ delimiters.toList := by decide
  have hpoint : (delimiters.toList.dropWhile isBlank).head? ≠ some '.' := by decide
  have hnumber : '\x00' ∉ (Literal.number ⟨"01", .nan⟩).value.toList := by decide
  obtain ⟨hquoted, hsimple, hbars⟩ := escaping_exact.1 delimiters .empty hnul
  exact ⟨hnul, hpoint, hquoted, hsimple hpoint, hbars, hnumber, escaping_exact.2 _ hnumber⟩

end MessageFormat
