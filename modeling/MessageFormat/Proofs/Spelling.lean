import MessageFormat.Proofs.Numeral
import MessageFormat.Token.Lexeme

/-!
# How lexemes are spelled

What a lexeme may be spelled as depends on its kind alone, and not on where it stands.
`TokenKind.Spells` says which characters spell a lexeme, what it then says, and what may not stand
behind it, since it would go on with the lexeme.

* `TokenKind.Spells.beginsWith` : a spelling begins with a character of the kind, so that it is
  never empty.
-/

namespace MessageFormat

open Scanner

/-! ### Classes of characters -/

/-- The characters that are no content. -/
def gaps : List Char :=
  ['\x00', ' ', '\t', '\r', '\n', '\u3000', '.', '@', '\\', '{', '|', '}']

/-- The characters that are blank. -/
def blanks : List Char :=
  [' ', '\t', '\r', '\n', '\u3000', '\u061c', '\u200e', '\u200f', '\u2066', '\u2067', '\u2068',
   '\u2069']

/-- The decimal digits. -/
def digits : List Char := ['0', '1', '2', '3', '4', '5', '6', '7', '8', '9']

/-- Whether a class leaves out all of some characters. -/
def leavesOut (p : Char → Bool) (characters : List Char) : Bool := characters.all fun c => !p c

theorem eq_false_of_leavesOut {p : Char → Bool} {characters : List Char} {c : Char}
    (h : leavesOut p characters = true) (hc : c ∈ characters) : p c = false := by
  have := List.all_eq_true.1 h c hc
  rwa [Bool.not_eq_true'] at this

theorem isContentChar_eq (c : Char) : isContentChar c = !gaps.contains c := by
  simp only [isContentChar, isSpace, gaps, List.contains_cons, List.contains_nil, Bool.or_assoc,
    Bool.or_false]

theorem isBlank_iff {c : Char} : isBlank c = true ↔ c ∈ blanks := by
  constructor
  · intro h
    simp only [isBlank, isSpace, isBidiMark, Bool.or_eq_true, beq_iff_eq, Bool.and_eq_true,
      decide_eq_true_eq] at h
    rcases h with ((((rfl | rfl) | rfl) | rfl) | rfl) | (((rfl | rfl) | rfl) | ⟨hlow, hhigh⟩)
    all_goals try decide
    have hlow : 0x2066 ≤ c.toNat := hlow
    have hhigh : c.toNat ≤ 0x2069 := hhigh
    have : c.toNat = 0x2066 ∨ c.toNat = 0x2067 ∨ c.toNat = 0x2068 ∨ c.toNat = 0x2069 := by omega
    have hc : c = Char.ofNat c.toNat := (Char.ofNat_toNat c).symm
    rcases this with h | h | h | h <;> rw [hc, h] <;> decide
  · intro h
    have hall : blanks.all isBlank = true := by decide
    exact List.all_eq_true.1 hall c h

theorem mem_digits {c : Char} (h : isDigit c = true) : c ∈ digits := by
  simp only [isDigit, Bool.and_eq_true, decide_eq_true_eq] at h
  have hlow : 48 ≤ c.toNat := h.1
  have hhigh : c.toNat ≤ 57 := h.2
  have hmem : ∀ k < 10, Char.ofNat (48 + k) ∈ digits := by decide
  obtain ⟨k, hk⟩ := Nat.exists_eq_add_of_le hlow
  rw [← Char.ofNat_toNat c, hk]
  exact hmem k (by omega)

/-- A character of a class that has no blanks in it. -/
theorem not_isBlank {p : Char → Bool} {c : Char} (hc : p c = true)
    (hp : leavesOut p blanks = true) : isBlank c = false := by
  cases hblank : isBlank c with
  | false => rfl
  | true =>
    rw [eq_false_of_leavesOut hp (isBlank_iff.1 hblank)] at hc
    cases hc

theorem not_isDigit {p : Char → Bool} {c : Char} (hc : p c = true)
    (hp : leavesOut p digits = true) : isDigit c = false := by
  cases hdigit : isDigit c with
  | false => rfl
  | true =>
    rw [eq_false_of_leavesOut hp (mem_digits hdigit)] at hc
    cases hc

/-- A character of a class that leaves out what is no content. -/
theorem isContentChar_of {p : Char → Bool} {c : Char} (hc : p c = true)
    (hp : leavesOut p gaps = true) : isContentChar c = true := by
  rw [isContentChar_eq]
  cases hgap : gaps.contains c with
  | false => rfl
  | true =>
    rw [eq_false_of_leavesOut hp (by simpa using hgap)] at hc
    cases hc

/-- A character of a class that leaves out another character. -/
theorem beq_false_of {p : Char → Bool} {c : Char} (hc : p c = true) (d : Char)
    (hd : p d = false) : (c == d) = false := by
  rw [beq_eq_false_iff_ne]
  rintro rfl
  rw [hd] at hc
  cases hc

/-- A character of a class that leaves out some others is none of them. -/
theorem forall_beq_false_of {p : Char → Bool} {c : Char} {others : List Char} (hc : p c = true)
    (hp : leavesOut p others = true) : ∀ d ∈ others, (c == d) = false :=
  fun d hd => beq_false_of hc d (eq_false_of_leavesOut hp hd)

/-! ### Spellings -/

/-- A name behind a sigil, and no character behind it that could go on with it. -/
def SpellsName (sigil : List Char) (taken value rest : List Char) : Prop :=
  taken = sigil ++ value ∧ IsName value ∧ StopsAt isNameChar rest

/-- An identifier behind a sigil, and nothing behind it that could go on with it. -/
def SpellsIdentifier (sigil : List Char) (taken value rest : List Char) : Prop :=
  taken = sigil ++ value ∧ IsIdentifier value ∧ StopsAt isNameChar rest ∧
    (IsName value → ¬ Qualifies rest)

/-- Decoded text, and nothing behind it that could go on with it. -/
def SpellsText (plain goesOn : Char → Bool) (taken value rest : List Char) : Prop :=
  taken ≠ [] ∧ Decodes plain taken value ∧ StopsAt goesOn rest

/-- Ahead of `rest`, the characters `taken` spell a lexeme of the kind that says `value`. -/
def TokenKind.Spells (kind : TokenKind) (taken value rest : List Char) : Prop :=
  match kind with
  | text => SpellsText isTextChar isNoBrace taken value rest
  | reservedText => SpellsText isReservedChar (goesOn isReservedChar) taken value rest ∧
      StopsAt isBlank taken
  | quotedLiteral =>
    ∃ body, taken = '|' :: (body ++ ['|']) ∧ Decodes isQuotedChar body value
  | blank => taken = value ∧ (value ≠ [] ∧ ∀ c ∈ value, isBlank c = true) ∧ StopsAt isBlank rest
  | variableName => SpellsName ['$'] taken value rest
  | nameLiteral => SpellsName [] taken value rest
  | inputKeyword => SpellsName ['.'] taken value rest ∧ value = "input".toList
  | localKeyword => SpellsName ['.'] taken value rest ∧ value = "local".toList
  | matchKeyword => SpellsName ['.'] taken value rest ∧ value = "match".toList
  | reservedKeyword => SpellsName ['.'] taken value rest ∧
      value ∉ ["input".toList, "local".toList, "match".toList]
  | functionName => SpellsIdentifier [':'] taken value rest
  | markupOpen => SpellsIdentifier ['#'] taken value rest
  | markupClose => SpellsIdentifier ['/'] taken value rest
  | attributeName => SpellsIdentifier ['@'] taken value rest
  | optionName => SpellsIdentifier [] taken value rest
  | numberLiteral => taken = value ∧ IsNumber value ∧ StopsAt isNameChar rest
  | expressionOpen => taken = value ∧ value = ['{']
  | expressionClose => taken = value ∧ value = ['}']
  | patternOpen => taken = value ∧ value = ['{', '{']
  | patternClose => taken = value ∧ value = ['}', '}']
  | selfClose => taken = value ∧ value = ['/'] ∧ rest.head? = some '}'
  | equals => taken = value ∧ value = ['=']
  | catchAll => taken = value ∧ value = ['*']
  | reservedSigil => taken = value ∧ ∃ c, isReservedSigil c = true ∧ value = [c]
  | privateSigil => taken = value ∧ ∃ c, isPrivateSigil c = true ∧ value = [c]
  | endOfInput => False
  | fault => False

/-! ### First characters -/

/-- Whether a number may begin with the character. -/
def beginsNumber (c : Char) : Bool := c == '-' || isDigit c

/-- Whether a lexeme of the kind may begin with the character. -/
def TokenKind.begins (kind : TokenKind) (c : Char) : Bool :=
  match kind with
  | text => goesOn isTextChar c
  | reservedText => goesOn isReservedChar c
  | quotedLiteral => c == '|'
  | blank => isBlank c
  | variableName => c == '$'
  | nameLiteral | optionName => isNameStart c
  | inputKeyword | localKeyword | matchKeyword | reservedKeyword => c == '.'
  | functionName => c == ':'
  | markupOpen => c == '#'
  | markupClose | selfClose => c == '/'
  | attributeName => c == '@'
  | numberLiteral => beginsNumber c
  | expressionOpen | patternOpen => c == '{'
  | expressionClose | patternClose => c == '}'
  | equals => c == '='
  | catchAll => c == '*'
  | reservedSigil => isReservedSigil c
  | privateSigil => isPrivateSigil c
  | endOfInput | fault => false

/-- The text begins with a character of the class. -/
def BeginsWith (p : Char → Bool) (text : List Char) : Prop :=
  ∃ c rest, text = c :: rest ∧ p c = true

theorem IsName.beginsWith {text : List Char} (h : IsName text) : BeginsWith isNameStart text := by
  cases text with
  | nil => exact absurd h not_isName_nil
  | cons c rest => exact ⟨c, rest, rfl, (isName_cons.1 h).1⟩

theorem IsIdentifier.beginsWith {text : List Char} (h : IsIdentifier text) :
    BeginsWith isNameStart text := by
  cases h with
  | name h => exact IsName.beginsWith h
  | qualified h _ =>
    obtain ⟨c, rest, rfl, hc⟩ := IsName.beginsWith h
    exact ⟨c, _, rfl, hc⟩

theorem IsDigits.beginsWith {text : List Char} (h : IsDigits text) : BeginsWith isDigit text := by
  cases text with
  | nil => exact absurd rfl h.1
  | cons c rest => exact ⟨c, rest, rfl, h.2 c List.mem_cons_self⟩

theorem IsNumber.beginsWith {text : List Char} (h : IsNumber text) :
    BeginsWith beginsNumber text := by
  obtain ⟨sign, whole, fraction, exponent, rfl | rfl, hwhole, -, -, rfl⟩ := h
  · obtain ⟨c, rest, rfl, hc⟩ := hwhole.isDigits.beginsWith
    exact ⟨c, _, rfl, by simp [beginsNumber, hc]⟩
  · exact ⟨'-', _, rfl, rfl⟩

theorem SpellsText.beginsWith {plain : Char → Bool} {p : Char → Bool} {taken value rest : List Char}
    (h : SpellsText plain p taken value rest) : BeginsWith (goesOn plain) taken := by
  cases h.2.1 with
  | nil => exact absurd rfl h.1
  | plain hc _ => exact ⟨_, _, rfl, by simp [goesOn, hc]⟩
  | escape hc _ => exact ⟨_, _, rfl, by simp [goesOn]⟩

/-- A lexeme begins as its kind says, and so it is never empty. -/
theorem TokenKind.Spells.beginsWith {kind : TokenKind} {taken value rest : List Char}
    (h : kind.Spells taken value rest) : BeginsWith kind.begins taken := by
  cases kind with
  | text => exact SpellsText.beginsWith h
  | reservedText => exact SpellsText.beginsWith h.1
  | quotedLiteral =>
    obtain ⟨body, rfl, -⟩ := h
    exact ⟨'|', _, rfl, rfl⟩
  | blank =>
    obtain ⟨rfl, ⟨hne, hall⟩, -⟩ := h
    cases taken with
    | nil => exact absurd rfl hne
    | cons c taken => exact ⟨c, taken, rfl, hall c List.mem_cons_self⟩
  | nameLiteral =>
    obtain ⟨rfl, hname, -⟩ := h
    exact hname.beginsWith
  | optionName =>
    obtain ⟨rfl, hidentifier, -⟩ := h
    exact hidentifier.beginsWith
  | numberLiteral =>
    obtain ⟨rfl, hnumber, -⟩ := h
    exact hnumber.beginsWith
  | reservedSigil =>
    obtain ⟨rfl, c, hc, rfl⟩ := h
    exact ⟨c, [], rfl, hc⟩
  | privateSigil =>
    obtain ⟨rfl, c, hc, rfl⟩ := h
    exact ⟨c, [], rfl, hc⟩
  | inputKeyword | localKeyword | matchKeyword | reservedKeyword =>
    obtain ⟨⟨rfl, -⟩, -⟩ := h
    exact ⟨'.', _, rfl, rfl⟩
  | variableName | functionName | markupOpen | markupClose | attributeName =>
    obtain ⟨rfl, -⟩ := h
    exact ⟨_, _, rfl, rfl⟩
  | selfClose =>
    obtain ⟨rfl, rfl, -⟩ := h
    exact ⟨_, _, rfl, rfl⟩
  | expressionOpen | expressionClose | patternOpen | patternClose | equals | catchAll =>
    obtain ⟨rfl, rfl⟩ := h
    exact ⟨_, _, rfl, rfl⟩
  | endOfInput | fault => exact absurd h id

end MessageFormat
