import MessageFormat.Token.Lexeme

/-!
# Tokens of a source text

A cursor moves over a source text token by token.  A fault ends the text: behind it there is only
the end of the input, at the position of the fault.

* `Cursor.length_rest_next_lt` : a token that is neither the end nor a fault takes something;
* `tokenize` : the tokens of a source without a fault.
-/

namespace MessageFormat

/-- A place in a source text from which tokens are taken. -/
structure Cursor where
  /-- Where in a message this is. -/
  context : Context
  /-- Where in the source this is. -/
  position : Position
  /-- The text from here on. -/
  rest : List Char
deriving DecidableEq, Repr

namespace Cursor

/-- The cursor at the start of a source text. -/
def ofSource (source : String) : Cursor := ⟨.start, .start, source.toList⟩

/-- The next token and the cursor behind it. -/
def next (cursor : Cursor) : Token × Cursor :=
  match cursor.rest with
  | [] => (⟨.endOfInput, "", .point cursor.position⟩, cursor)
  | c :: rest =>
    let scan := cursor.context.scan c rest
    let position := cursor.position.after scan.taken
    match scan.result with
    | .ok lexeme =>
      (⟨lexeme.kind, String.ofList lexeme.value, .between cursor.position position⟩,
        ⟨lexeme.next, position, scan.rest⟩)
    | .error fault => (⟨.fault, fault.message, .point position⟩, ⟨cursor.context, position, []⟩)

/-- Whether a token is the last one: the end of the input or a fault. -/
def isLast (token : Token) : Bool := token.kind == .endOfInput || token.kind == .fault

theorem length_rest_next_lt {cursor : Cursor} (h : isLast cursor.next.1 = false) :
    cursor.next.2.rest.length < cursor.rest.length := by
  unfold next at h ⊢
  split at h
  · simp [isLast] at h
  · rename_i c rest hrest
    dsimp only at h ⊢
    split at h
    · rename_i lexeme hlexeme
      rw [hrest]
      exact (Context.takes_scan cursor.context c rest).advances lexeme hlexeme
    · simp [isLast] at h

/-- The tokens from here on, up to and including the end of the input or the first fault. -/
def tokens (cursor : Cursor) : List Token :=
  if _ : isLast cursor.next.1 then [cursor.next.1]
  else cursor.next.1 :: tokens cursor.next.2
termination_by cursor.rest.length
decreasing_by exact length_rest_next_lt (Bool.eq_false_iff.2 ‹_›)

/-- The tokens from here on, up to and including the end of the input, or else the first fault. -/
def tokensOrFault (cursor : Cursor) : Except Token (List Token) :=
  if _ : cursor.next.1.kind = .fault then .error cursor.next.1
  else if _ : cursor.next.1.kind = .endOfInput then .ok [cursor.next.1]
  else (cursor.next.1 :: ·) <$> tokensOrFault cursor.next.2
termination_by cursor.rest.length
decreasing_by exact length_rest_next_lt (by simp [isLast, *])

/-- The next `count` tokens. -/
def take (cursor : Cursor) : Nat → List Token
  | 0 => []
  | count + 1 => cursor.next.1 :: take cursor.next.2 count

end Cursor

/-- The tokens of a source text, up to and including the end of the input or the first fault. -/
def tokenizeAll (source : String) : List Token := (Cursor.ofSource source).tokens

/-- The error that a fault token stands for. -/
def Token.toError (token : Token) (source : String) : Error :=
  .ofCause (.illegal token.value (token.span.place source))

/-- The tokens of a source text without a fault. -/
def tokenize (source : String) : Except Error (List Token) :=
  (Cursor.ofSource source).tokensOrFault.mapError (·.toError source)

end MessageFormat
