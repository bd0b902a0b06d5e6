import MessageFormat.Error

/-!
# Positions in a source text

A position counts in three ways: bytes of UTF-8 from the start, lines, and characters on the line.
Only a line feed ends a line.  `Position.after` moves a position over characters, and positions of a
source are the ones reached from `Position.start` (`Position.after_append`).  A line and a column are
at most one more than the source has characters, so that 32 bits hold them in all but the longest
sources (`lt_size_of_mem_tokenizeAll`).
-/

namespace MessageFormat

/-- A position in a source text. -/
structure Position where
  /-- The number of bytes before it. -/
  offset : Nat
  /-- The number of its line, from 1. -/
  line : Nat
  /-- The number of its character on the line, from 1. -/
  column : Nat
deriving DecidableEq, Repr

namespace Position

/-- The position before the first character. -/
def start : Position := ⟨0, 1, 1⟩

/-- The position behind one character. -/
def next (p : Position) (c : Char) : Position :=
  if c == '\n' then ⟨p.offset + c.utf8Size, p.line + 1, 1⟩
  else ⟨p.offset + c.utf8Size, p.line, p.column + 1⟩

/-- The position behind some characters. -/
def after (p : Position) (text : List Char) : Position := text.foldl next p

@[simp]
theorem after_nil (p : Position) : p.after [] = p := rfl

@[simp]
theorem after_cons (p : Position) (c : Char) (text : List Char) :
    p.after (c :: text) = (p.next c).after text := rfl

theorem after_append (p : Position) (a b : List Char) :
    p.after (a ++ b) = (p.after a).after b :=
  List.foldl_append

/-- The position at the end of a source text, told from the text as a whole: by its bytes, by the
lines that it ends, and by the characters behind the last of these ends. -/
def endOf (source : String) : Position :=
  ⟨source.utf8ByteSize, source.toList.count '\n' + 1,
    (source.toList.reverse.takeWhile (· != '\n')).length + 1⟩

end Position

/-- A stretch of a source text: its two ends in bytes, and the line and column of the first. -/
structure Span where
  /-- The number of bytes before it. -/
  start : Nat
  /-- The number of bytes before its end. -/
  stop : Nat
  /-- The number of the line that it begins on, from 1. -/
  line : Nat
  /-- The number of its first character on that line, from 1. -/
  column : Nat
deriving DecidableEq, Repr

namespace Span

/-- The empty span at a position. -/
def point (p : Position) : Span := ⟨p.offset, p.offset, p.line, p.column⟩

/-- The span between two positions. -/
def between (p q : Position) : Span := ⟨p.offset, q.offset, p.line, p.column⟩

/-- The number of bytes in the span. -/
def length (span : Span) : Nat := span.stop - span.start

/-- Whether there are no bytes in the span. -/
def isEmpty (span : Span) : Bool := span.start == span.stop

/-- What is left of a text behind its first `bytes` bytes, if it has so many and this cuts no
character. -/
def dropBytes? : Nat → List Char → Option (List Char)
  | 0, text => some text
  | _ + 1, [] => none
  | bytes + 1, c :: rest =>
    if c.utf8Size ≤ bytes + 1 then dropBytes? (bytes + 1 - c.utf8Size) rest else none

/-- The first `bytes` bytes of a text, if it has so many and this cuts no character. -/
def takeBytes? : Nat → List Char → Option (List Char)
  | 0, _ => some []
  | _ + 1, [] => none
  | bytes + 1, c :: rest =>
    if c.utf8Size ≤ bytes + 1 then (takeBytes? (bytes + 1 - c.utf8Size) rest).map (c :: ·)
    else none

/-- The characters of a source that the span covers, if it lies inside the source and cuts no
character. -/
def slice? (span : Span) (source : List Char) : Option (List Char) :=
  if span.start ≤ span.stop then (dropBytes? span.start source).bind (takeBytes? span.length)
  else none

/-- The text that the span covers, if it lies inside the source and cuts no character. -/
def text? (span : Span) (source : String) : Option String :=
  (span.slice? source.toList).map String.ofList

/-- Splits a text behind its first `bytes` bytes, or at its end if it has fewer; a character that
this would cut goes to the second part. -/
def splitBytes (bytes : Nat) : List Char → List Char × List Char
  | [] => ([], [])
  | c :: rest =>
    if c.utf8Size ≤ bytes then
      let (before, behind) := splitBytes (bytes - c.utf8Size) rest
      (c :: before, behind)
    else ([], c :: rest)

/-- The line of the source on which the span begins.  A start beyond the end counts as the end. -/
def sourceLine (span : Span) (source : String) : String :=
  let (before, rest) := splitBytes span.start source.toList
  let lead := (before.reverse.takeWhile (· != '\n')).reverse
  String.ofList (lead ++ rest.takeWhile (· != '\n'))

/-- The place of the span in its source, for an error. -/
def place (span : Span) (source : String) : Place :=
  ⟨span.line, span.column, span.sourceLine source⟩

end Span

end MessageFormat
