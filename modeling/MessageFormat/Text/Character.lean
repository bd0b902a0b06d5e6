/-!
# Character classes of message text

The alphabet of a message, one predicate for each class that the grammar names.  Blanks are of two
kinds: *spaces*, which separate, and *bidi marks*, which may stand beside a separator and never
replace one.  The four content classes differ only in the delimiters that they leave out:

* `isTextChar_iff` : text in a pattern leaves out NUL, the backslash and both braces;
* `isQuotedChar_iff` : a quoted literal leaves out NUL, the backslash and the bar.
-/

namespace MessageFormat

/-! ### Blanks -/

/-- A space: the characters that separate one item from the next. -/
def isSpace (c : Char) : Bool :=
  c == ' ' || c == '\t' || c == '\r' || c == '\n' || c == '\u3000'

/-- A mark that orders bidirectional text and is otherwise invisible. -/
def isBidiMark (c : Char) : Bool :=
  c == '\u061c' || c == '\u200e' || c == '\u200f' ||
    ('\u2066' ≤ c && c ≤ '\u2069')

/-- A character that may stand between two items: a space or a bidi mark. -/
def isBlank (c : Char) : Bool := isSpace c || isBidiMark c

/-! ### Content -/

/-- A character that stands for itself in every context: not NUL, no space, and none of the
delimiters. -/
def isContentChar (c : Char) : Bool :=
  !(c == '\x00' || isSpace c || c == '.' || c == '@' || c == '\\' || c == '{' || c == '|' ||
    c == '}')

/-- A character that stands for itself in the text of a pattern. -/
def isTextChar (c : Char) : Bool :=
  isContentChar c || isSpace c || c == '.' || c == '@' || c == '|'

/-- A character that stands for itself between the bars of a quoted literal. -/
def isQuotedChar (c : Char) : Bool :=
  isContentChar c || isSpace c || c == '.' || c == '@' || c == '{' || c == '}'

/-- A character that stands for itself in a reserved body. -/
def isReservedChar (c : Char) : Bool := isContentChar c || c == '.'

/-- A character that a backslash may precede. -/
def isEscapable (c : Char) : Bool := c == '\\' || c == '{' || c == '|' || c == '}'

theorem isTextChar_iff {c : Char} :
    isTextChar c = true ↔ c ≠ '\x00' ∧ c ≠ '\\' ∧ c ≠ '{' ∧ c ≠ '}' := by
  constructor
  · intro h
    refine ⟨?_, ?_, ?_, ?_⟩ <;> rintro rfl <;> exact absurd h (by decide)
  · rintro ⟨h0, h1, h2, h3⟩
    by_cases hspace : isSpace c <;> by_cases hpoint : c = '.' <;> by_cases hat : c = '@' <;>
      by_cases hbar : c = '|' <;> simp [isTextChar, isContentChar, *]

theorem isQuotedChar_iff {c : Char} :
    isQuotedChar c = true ↔ c ≠ '\x00' ∧ c ≠ '\\' ∧ c ≠ '|' := by
  constructor
  · intro h
    refine ⟨?_, ?_, ?_⟩ <;> rintro rfl <;> exact absurd h (by decide)
  · rintro ⟨h0, h1, h2⟩
    by_cases hspace : isSpace c <;> by_cases hpoint : c = '.' <;> by_cases hat : c = '@' <;>
      by_cases hopen : c = '{' <;> by_cases hclose : c = '}' <;>
      simp [isQuotedChar, isContentChar, *]

/-! ### Names and sigils -/

/-- The ranges of the characters that may begin a name. -/
def nameStartRanges : List (Char × Char) :=
  [('a', 'z'), ('A', 'Z'), ('_', '_'), ('\u00c0', '\u00d6'), ('\u00d8', '\u00f6'),
   ('\u00f8', '\u02ff'), ('\u0370', '\u037d'), ('\u037f', '\u061b'), ('\u061d', '\u1fff'),
   ('\u200c', '\u200d'), ('\u2070', '\u218f'), ('\u2c00', '\u2fef'), ('\u3001', '\ud7ff'),
   ('\uf900', '\ufdcf'), ('\ufdf0', '\ufffc'), (Char.ofNat 0x10000, Char.ofNat 0xeffff)]

/-- A character that may begin a name. -/
def isNameStart (c : Char) : Bool :=
  nameStartRanges.any fun (low, high) => low ≤ c && c ≤ high

/-- A decimal digit, of the ten of ASCII only. -/
def isDigit (c : Char) : Bool := '0' ≤ c && c ≤ '9'

/-- A character that may continue a name. -/
def isNameChar (c : Char) : Bool :=
  isNameStart c || isDigit c || c == '-' || c == '.' || c == '\u00b7' ||
    ('\u0300' ≤ c && c ≤ '\u036f') || ('\u203f' ≤ c && c ≤ '\u2040')

/-- A sigil that opens a reserved directive. -/
def isReservedSigil (c : Char) : Bool :=
  c == '!' || c == '%' || c == '*' || c == '+' || c == '<' || c == '>' || c == '?' || c == '~'

/-- A sigil that opens a private-use directive. -/
def isPrivateSigil (c : Char) : Bool := c == '^' || c == '&'

end MessageFormat
