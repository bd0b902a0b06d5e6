import MessageFormat.Message.Reading
import MessageFormat.Message.Validity
import MessageFormat.Text.Quoted

/-!
# Parsing messages

`parse` reads a message from a source text.  The tokens up to the end of the input are read by
`Message.read`, and a mismatch becomes an error at the place of the token that was found.

* `Message.ofTokens` : the message that some tokens spell out;
* `parse` : the message that a source text spells out;
* `parseValid` : the same, if it is valid.
-/

namespace MessageFormat

/-- How an error message names a token: by its kind, and by its value too if the kind leaves one
open. -/
def Token.description (token : Token) : String :=
  if token.value.isEmpty || token.kind.isSpelledOut then token.kind.name
  else token.kind.name ++ " " ++ quoteText token.value

/-- The error of finding a token where other kinds were expected.  A fault is reported for what it
is. -/
def Token.unexpected (token : Token) (expected : List TokenKind) (source : String) : Error :=
  if token.kind = .fault then token.toError source
  else .ofCause
    (.unexpected (expected.map TokenKind.name) token.description (token.span.place source))

/-- The error of a mismatch in a source text whose end is marked by the token `last`. -/
def Mismatch.toError (mismatch : Mismatch) (last : Token) (source : String) : Error :=
  (mismatch.found.getD last).unexpected mismatch.expected source

namespace Message

/-- The tokens before the end of the input. -/
def tokensBeforeEnd (tokens : List Token) : List Token :=
  tokens.takeWhile (·.kind != .endOfInput)

/-- The token that marks the end of the input: the first that says so, or else one behind the last
character of the source. -/
def endToken (source : String) (tokens : List Token) : Token :=
  (tokens.find? (·.kind == .endOfInput)).getD
    ⟨.endOfInput, "", .point (.endOf source)⟩

theorem kind_endToken (source : String) (tokens : List Token) :
    (endToken source tokens).kind = .endOfInput := by
  unfold endToken
  cases hfind : tokens.find? (·.kind == .endOfInput) with
  | none => rfl
  | some token =>
    have hkind := List.find?_some hfind
    exact beq_iff_eq.1 hkind

/-- The message that some tokens of a source text spell out. -/
def ofTokens (source : String) (tokens : List Token) : Except Error Message :=
  (Message.read (tokensBeforeEnd tokens)).mapError (·.toError (endToken source tokens) source)

end Message

/-- The message that a source text spells out. -/
def parse (source : String) : Except Error Message := do
  Message.ofTokens source (← tokenize source)

/-- The valid message that a source text spells out. -/
def parseValid (source : String) : Except Error Message := do
  let message ← parse source
  message.validate
  return message

theorem parseValid_eq_ok_iff {source : String} {m : Message} :
    parseValid source = .ok m ↔ parse source = .ok m ∧ m.validate = .ok () := by
  rw [parseValid, bind_eq_ok_iff]
  constructor
  · rintro ⟨parsed, hparse, h⟩
    obtain ⟨⟨⟩, hvalidate, h⟩ := bind_eq_ok_iff.1 h
    obtain rfl : parsed = m := Except.ok.inj h
    exact ⟨hparse, hvalidate⟩
  · rintro ⟨hparse, hvalidate⟩
    exact ⟨m, hparse, bind_eq_ok_iff.2 ⟨(), hvalidate, rfl⟩⟩

end MessageFormat
