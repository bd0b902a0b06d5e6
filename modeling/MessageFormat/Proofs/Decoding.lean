import Mathlib
import MessageFormat.Proofs.Lexed

/-!
# The values of tokens

A token says what the slice of the source that it covers spells.  Text is decoded: a character
behind a backslash stands for itself, and what no backslash precedes is of the class of the text and
ends nothing.  A sigil and the bars around a quoted text are left out, and any other slice is what
the token says.

* `Decodes.decodesTo` : decoding undoes the escapes of a spelling and changes nothing else;
* `Cursor.Path.exists_spells` : on its way, a cursor takes the spelling of each token where the span
  of the token lies;
* `values_exact` : the value of a token and the slice under its span.
-/

namespace MessageFormat

open Scanner

/-! ### Escapes -/

/-- The characters that a text says, each with whether a backslash escapes it. -/
def said : List Char → List (Bool × Char)
  | '\\' :: c :: rest => (true, c) :: said rest
  | c :: rest => (false, c) :: said rest
  | [] => []

/-- The text with each escape replaced by the escaped character. -/
def unescape (text : List Char) : List Char := (said text).map (·.2)

/-- The slice is a text of a class in which some delimiters do not stand unescaped, and the value is
what it says. -/
structure DecodesTo (plain : Char → Bool) (delimiters slice value : List Char) : Prop where
  /-- Each escape stands for the escaped character. -/
  value_eq : value = unescape slice
  /-- What is not escaped is of the class, and no delimiter. -/
  unescaped : ∀ c, (false, c) ∈ said slice → plain c = true ∧ c ∉ delimiters
  /-- What is escaped may be. -/
  escaped : ∀ c, (true, c) ∈ said slice → isEscapable c = true

/-- What a token of the kind says, by the slice that it covers. -/
def TokenKind.Reads (kind : TokenKind) (slice value : List Char) : Prop :=
  match kind with
  | text => DecodesTo isTextChar ['{', '}', '\\'] slice value
  | reservedText => DecodesTo isReservedChar ['{', '}', '\\'] slice value
  | quotedLiteral =>
    ∃ body, slice = '|' :: (body ++ ['|']) ∧ DecodesTo isQuotedChar ['|', '\\'] body value
  | variableName => slice = '$' :: value ∧ IsName value
  | inputKeyword | localKeyword | matchKeyword | reservedKeyword =>
    slice = '.' :: value ∧ IsName value
  | functionName => slice = ':' :: value ∧ IsIdentifier value
  | markupOpen => slice = '#' :: value ∧ IsIdentifier value
  | markupClose => slice = '/' :: value ∧ IsIdentifier value
  | attributeName => slice = '@' :: value ∧ IsIdentifier value
  | expressionOpen | expressionClose | patternOpen | patternClose | selfClose | nameLiteral
  | numberLiteral | optionName | equals | catchAll | blank | reservedSigil | privateSigil
  | endOfInput | fault => slice = value

theorem said_cons {c : Char} (hc : c ≠ '\\') (rest : List Char) :
    said (c :: rest) = (false, c) :: said rest := by
  rw [said]
  rintro _ _ rfl
  exact absurd rfl hc

/-- **Decoding undoes the escapes of a spelling** and changes nothing else. -/
theorem Decodes.decodesTo {plain : Char → Bool} {delimiters spelling text : List Char}
    (hplain : leavesOut plain ('\\' :: delimiters) = true) (h : Decodes plain spelling text) :
    DecodesTo plain delimiters spelling text := by
  have hleft : ∀ c ∈ '\\' :: delimiters, plain c = false := fun c => eq_false_of_leavesOut hplain
  induction h with
  | nil => exact ⟨rfl, nofun, nofun⟩
  | @plain c spelling text hc _ ih =>
    have hout : c ∉ '\\' :: delimiters := fun hmem => by
      rw [hleft c hmem] at hc
      cases hc
    rw [List.mem_cons, not_or] at hout
    have hsaid := said_cons hout.1 spelling
    refine ⟨?_, fun d hd => ?_, fun d hd => ?_⟩
    · rw [unescape, hsaid, ih.value_eq]
      rfl
    · rw [hsaid, List.mem_cons, Prod.mk.injEq] at hd
      rcases hd with ⟨-, rfl⟩ | hd
      · exact ⟨hc, hout.2⟩
      · exact ih.unescaped d hd
    · rw [hsaid, List.mem_cons, Prod.mk.injEq] at hd
      exact ih.escaped d (hd.resolve_left nofun)
  | @escape c spelling text hc _ ih =>
    refine ⟨?_, fun d hd => ?_, fun d hd => ?_⟩
    · rw [unescape, said, ih.value_eq]
      rfl
    · rw [said, List.mem_cons, Prod.mk.injEq] at hd
      exact ih.unescaped d (hd.resolve_left nofun)
    · rw [said, List.mem_cons, Prod.mk.injEq] at hd
      rcases hd with ⟨-, rfl⟩ | hd
      · exact hc
      · exact ih.escaped d hd

/-- A spelling reads as what it says. -/
theorem TokenKind.Spells.reads {kind : TokenKind} {taken value rest : List Char}
    (h : kind.Spells taken value rest) : kind.Reads taken value := by
  cases kind with
  | text => exact h.2.1.decodesTo (by decide)
  | reservedText => exact h.1.2.1.decodesTo (by decide)
  | quotedLiteral =>
    obtain ⟨body, hbody, hdecodes⟩ := h
    exact ⟨body, hbody, hdecodes.decodesTo (by decide)⟩
  | inputKeyword | localKeyword | matchKeyword | reservedKeyword => exact ⟨h.1.1, h.1.2.1⟩
  | variableName | functionName | markupOpen | markupClose | attributeName => exact ⟨h.1, h.2.1⟩
  | expressionOpen | expressionClose | patternOpen | patternClose | selfClose | nameLiteral
  | numberLiteral | optionName | equals | catchAll | blank | reservedSigil | privateSigil =>
    exact h.1
  | endOfInput | fault => exact absurd h id

/-! ### Slices -/

/-- On its way, a cursor takes the spelling of each token where the span of the token lies. -/
theorem Cursor.Path.exists_spells {cursor stop : Cursor} {tokens : List Token}
    (path : Path cursor tokens stop) {before : List Char}
    (hposition : cursor.position = .behind before) :
    ∀ token ∈ tokens, ∃ lead taken behind, before ++ cursor.rest = lead ++ (taken ++ behind) ∧
      token.Covers lead taken ∧ token.Spells taken behind := by
  induction path generalizing before with
  | nil => nofun
  | @cons cursor stop tokens h _ ih =>
    obtain ⟨taken, hrest, hspells, hafter, hspan⟩ := next_spells h
    rw [hposition, Position.after_behind] at hafter
    rw [hposition, hafter] at hspan
    rw [hrest]
    refine List.forall_mem_cons.2 ⟨⟨before, taken, _, rfl, Token.covers_of_span hspan, hspells⟩, ?_⟩
    rw [← List.append_assoc]
    exact ih hafter

/-- The slice of a token is a spelling of it. -/
theorem exists_spells_of_mem_tokenizeAll {source : String} {token : Token}
    (hmem : token ∈ tokenizeAll source) (hlast : Cursor.isLast token = false) :
    ∃ taken rest, token.span.text? source = some (String.ofList taken) ∧
      token.Spells taken rest := by
  obtain ⟨init, stop, path, hstop, htokens⟩ := (Cursor.ofSource source).exists_path
  rw [tokenizeAll, htokens, List.mem_append, List.mem_singleton] at hmem
  have hstart : (Cursor.ofSource source).position = .behind [] := rfl
  rcases hmem with hmem | rfl
  · obtain ⟨lead, taken, behind, hsource, hcovers, hspells⟩ :=
      path.exists_spells hstart token hmem
    exact ⟨taken, behind, hcovers.text?_eq hsource, hspells⟩
  · rw [hstop] at hlast
    cases hlast

/-! ### The character NUL -/

theorem Decodes.not_mem_spelling {plain : Char → Bool} {spelling text : List Char} {c : Char}
    (h : Decodes plain spelling text) (hplain : goesOn plain c = false)
    (hescape : isEscapable c = false) : c ∉ spelling := by
  rw [goesOn, Bool.or_eq_false_iff, beq_eq_false_iff_ne] at hplain
  induction h with
  | nil => exact List.not_mem_nil
  | plain hd _ ih =>
    rw [List.mem_cons, not_or]
    refine ⟨?_, ih⟩
    rintro rfl
    rw [hplain.1] at hd
    cases hd
  | escape hd _ ih =>
    rw [List.mem_cons, List.mem_cons, not_or, not_or]
    refine ⟨hplain.2, ?_, ih⟩
    rintro rfl
    rw [hescape] at hd
    cases hd

theorem IsIdentifier.not_mem {text : List Char} {c : Char} (h : IsIdentifier text)
    (hc : isNameChar c = false) (hcolon : c ≠ ':') : c ∉ text := by
  cases h with
  | name h => exact h.not_mem hc
  | qualified hqualifier hname =>
    rw [List.mem_append, List.mem_cons, not_or, not_or]
    exact ⟨hqualifier.not_mem hc, hcolon, hname.not_mem hc⟩

/-- The characters of a number. -/
def isNumberChar (c : Char) : Bool :=
  isDigit c || c == '.' || isExponentMark c || isExponentSign c

theorem IsNumber.forall_isNumberChar {text : List Char} (h : IsNumber text) :
    ∀ c ∈ text, isNumberChar c = true := by
  have hdigits : ∀ digits, IsDigits digits → ∀ c ∈ digits, isNumberChar c = true :=
    fun digits h c hc => by simp [isNumberChar, h.2 c hc]
  obtain ⟨sign, whole, fraction, exponent, hsign, hwhole, hfraction, hexponent, rfl⟩ := h
  simp only [List.forall_mem_append]
  refine ⟨⟨⟨?_, hdigits whole hwhole.isDigits⟩, ?_⟩, ?_⟩
  · rcases hsign with rfl | rfl
    · nofun
    · exact List.all_eq_true.1 (by decide)
  · rcases hfraction with rfl | ⟨digits, hd, rfl⟩
    · nofun
    · exact List.forall_mem_cons.2 ⟨by decide, hdigits digits hd⟩
  · rcases hexponent with rfl | ⟨mark, sign, digits, hmark, hsign, hd, rfl⟩
    · nofun
    · refine List.forall_mem_cons.2 ⟨by simp [isNumberChar, hmark], ?_⟩
      refine List.forall_mem_append.2 ⟨?_, hdigits digits hd⟩
      rcases hsign with rfl | ⟨c, hc, rfl⟩
      · nofun
      · exact List.forall_mem_singleton.2 (by simp [isNumberChar, hc])

/-- NUL stands in no spelling: there is no class that it belongs to, and it cannot be escaped. -/
theorem TokenKind.Spells.nul_not_mem {kind : TokenKind} {taken value rest : List Char}
    (h : kind.Spells taken value rest) : '\x00' ∉ taken := by
  have hclass : ∀ (p : Char → Bool) (text : List Char), p '\x00' = false →
      (∀ c ∈ text, p c = true) → '\x00' ∉ text := by
    intro p text hp hall hmem
    rw [hall _ hmem] at hp
    cases hp
  cases kind with
  | text => exact h.2.1.not_mem_spelling (by decide) (by decide)
  | reservedText => exact h.1.2.1.not_mem_spelling (by decide) (by decide)
  | quotedLiteral =>
    obtain ⟨body, rfl, hdecodes⟩ := h
    have hbody := hdecodes.not_mem_spelling (c := '\x00') (by decide) (by decide)
    simp [hbody]
  | blank =>
    obtain ⟨rfl, ⟨-, hall⟩, -⟩ := h
    exact hclass isBlank _ (by decide) hall
  | numberLiteral =>
    obtain ⟨rfl, hnumber, -⟩ := h
    exact hclass isNumberChar _ (by decide) hnumber.forall_isNumberChar
  | inputKeyword | localKeyword | matchKeyword | reservedKeyword =>
    obtain ⟨⟨rfl, hname, -⟩, -⟩ := h
    simp [hname.not_mem (c := '\x00') (by decide)]
  | variableName | nameLiteral =>
    obtain ⟨rfl, hname, -⟩ := h
    simp [hname.not_mem (c := '\x00') (by decide)]
  | functionName | markupOpen | markupClose | attributeName | optionName =>
    obtain ⟨rfl, hidentifier, -⟩ := h
    simp [hidentifier.not_mem (c := '\x00') (by decide) (by decide)]
  | reservedSigil =>
    obtain ⟨rfl, c, hc, rfl⟩ := h
    exact hclass isReservedSigil _ (by decide) (List.forall_mem_singleton.2 hc)
  | privateSigil =>
    obtain ⟨rfl, c, hc, rfl⟩ := h
    exact hclass isPrivateSigil _ (by decide) (List.forall_mem_singleton.2 hc)
  | selfClose =>
    obtain ⟨rfl, rfl, -⟩ := h
    decide
  | expressionOpen | expressionClose | patternOpen | patternClose | equals | catchAll =>
    obtain ⟨rfl, rfl⟩ := h
    decide
  | endOfInput | fault => exact absurd h id

theorem SpellsOut.nul_not_mem {tokens : List Token} {text rest : List Char}
    (h : SpellsOut tokens text rest) (hrest : '\x00' ∉ rest) : '\x00' ∉ text := by
  induction h with
  | nil => exact hrest
  | cons hspells _ ih =>
    rw [List.mem_append, not_or]
    exact ⟨TokenKind.Spells.nul_not_mem hspells, ih hrest⟩

/-! ### Exactness -/

/-- **Values are exact.**  The value of a token is what the slice under its span says, and a source
with NUL in it is not tokenized without an error. -/
theorem values_exact (source : String) :
    (∀ token ∈ tokenizeAll source, token.kind ≠ .endOfInput → token.kind ≠ .fault →
      ∃ slice, token.span.text? source = some slice ∧
        token.kind.Reads slice.toList token.value.toList) ∧
      ('\x00' ∈ source.toList → ∃ e, tokenize source = .error e) := by
  constructor
  · intro token hmem hend hfault
    have hlast : Cursor.isLast token = false := by simp [Cursor.isLast, hend, hfault]
    obtain ⟨taken, rest, hslice, hspells⟩ := exists_spells_of_mem_tokenizeAll hmem hlast
    refine ⟨String.ofList taken, hslice, ?_⟩
    rw [String.toList_ofList]
    exact TokenKind.Spells.reads hspells
  · intro hnul
    cases h : tokenize source with
    | error e => exact ⟨e, rfl⟩
    | ok tokens =>
      obtain ⟨init, last, -, -, -, hspells⟩ := spellsOut_of_tokenize h
      exact absurd hnul (hspells.nul_not_mem List.not_mem_nil)

/-- An escaped bar in a quoted literal, and NUL behind text. -/
theorem values_exact_escaped :
    (⟨.quotedLiteral, "x|y", ⟨1, 7, 1, 2⟩⟩ ∈ tokenizeAll "\x7b|x\\|y|\x7d" ∧
      ∃ slice, (Span.mk 1 7 1 2).text? "\x7b|x\\|y|\x7d" = some slice ∧
        TokenKind.quotedLiteral.Reads slice.toList "x|y".toList) ∧
      '\x00' ∈ "a\x00".toList ∧ ∃ e, tokenize "a\x00" = .error e := by
  have hmem : ⟨.quotedLiteral, "x|y", ⟨1, 7, 1, 2⟩⟩ ∈ tokenizeAll "\x7b|x\\|y|\x7d" := by
    have h : tokenizeAll "\x7b|x\\|y|\x7d" = [⟨.expressionOpen, "\x7b", ⟨0, 1, 1, 1⟩⟩,
      ⟨.quotedLiteral, "x|y", ⟨1, 7, 1, 2⟩⟩, ⟨.expressionClose, "\x7d", ⟨7, 8, 1, 8⟩⟩,
      ⟨.endOfInput, "", ⟨8, 8, 1, 9⟩⟩] := by cbv
    rw [h]
    simp
  have hnul : '\x00' ∈ "a\x00".toList := by decide
  exact ⟨⟨hmem, (values_exact _).1 _ hmem (by decide) (by decide)⟩, hnul, (values_exact _).2 hnul⟩

end MessageFormat
