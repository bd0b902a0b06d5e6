import MessageFormat.Proofs.Decoding
import MessageFormat.Proofs.RoundTrip
import MessageFormat.Proofs.Words

/-!
# Bare literals

A printer asks of a text whether it may stand bare, as a number or as a name, and a scanner takes
numbers and names off a source.  The two agree: a text passes the test just if it is scanned as a
whole, and as nothing else, in the two places where a bare literal stands, between the braces of an
expression and between the spaces around a key.

* `tokenizesBraced_iff` : between braces;
* `tokenizesSpaced_iff` : between spaces;
* `bareLiterals_exact` : the tests, the grammar of numbers and the scanner together.
-/

namespace MessageFormat

open Scanner

/-- The kinds of literals that stand bare. -/
inductive TokenKind.IsBare : TokenKind → Prop where
  /-- A number. -/
  | number : IsBare .numberLiteral
  /-- A name. -/
  | name : IsBare .nameLiteral

/-- The test for texts that a literal of the kind may spell. -/
def TokenKind.admits : TokenKind → String → Bool
  | numberLiteral => isNumberLiteral
  | nameLiteral => isName
  | _ => fun _ => false

/-- Between braces, the text is scanned as a literal of the kind and as nothing else. -/
def TokenizesBraced (kind : TokenKind) (text : String) : Prop :=
  (tokenize ("\x7b" ++ text ++ "\x7d")).map (List.map Token.word) =
    .ok [(.expressionOpen, "\x7b"), (kind, text), (.expressionClose, "\x7d"), (.endOfInput, "")]

/-- Behind the tokens of a front of the source there are the space before the text, the text as a
literal of the kind, and what there is from the space behind it on. -/
def TokenizesSpaced (kind : TokenKind) (text : String) (source : String) (front : List Token)
    (position : Position) (behind : List Char) : Prop :=
  (tokenizeAll source).map Token.word =
    front.map Token.word ++ (.blank, " ") :: (kind, text) ::
      (Cursor.tokens ⟨.header, position.after (' ' :: text.toList), ' ' :: behind⟩).map Token.word

namespace TokenKind.IsBare

variable {kind : TokenKind} {text : String} {taken rest : List Char}

/-- A text that passes the test is spelled as it is, as long as no name goes on behind it. -/
theorem spells (hkind : kind.IsBare) (h : kind.admits text = true)
    (hrest : StopsAt isNameChar rest) : kind.Spells text.toList text.toList rest := by
  cases hkind with
  | number => exact ⟨rfl, isNumber_toList.2 h, hrest⟩
  | name => exact ⟨rfl, isName_toList.2 h, hrest⟩

theorem admits_of_spells (hkind : kind.IsBare) (h : kind.Spells taken text.toList rest) :
    kind.admits text = true := by
  cases hkind with
  | number => exact isNumber_toList.1 h.2.1
  | name => exact isName_toList.1 h.2.1

theorem beginsItem (hkind : kind.IsBare) (h : kind.Spells taken text.toList rest) :
    BeginsWith beginsItem taken := by
  cases hkind with
  | number => exact BeginsWith.mono h.beginsWith fun c hc => beginsItem_of hc (by decide)
  | name => exact BeginsWith.mono h.beginsWith fun c hc => beginsItem_of hc (by decide)

/-- Whatever a source looks like, only what passes the test is scanned as a bare literal. -/
theorem admits_of_mem (hkind : kind.IsBare) (source : String)
    (h : (kind, text) ∈ (tokenizeAll source).map Token.word) : kind.admits text = true := by
  obtain ⟨token, hmem, hword⟩ := List.mem_map.1 h
  obtain ⟨rfl, rfl⟩ := Prod.mk.inj hword
  have hlast : Cursor.isLast token = false := by
    cases hbare : token.kind <;> rw [hbare] at hkind <;> cases hkind <;> simp [Cursor.isLast, hbare]
  obtain ⟨taken, rest, -, hspells⟩ := exists_spells_of_mem_tokenizeAll hmem hlast
  exact hkind.admits_of_spells hspells

end TokenKind.IsBare

/-! ### Places of bare literals -/

/-- A spelling leads over a token with the kind and the value that are spelled. -/
theorem Lexes.word {before after : Context} {kind : TokenKind} {taken rest : List Char}
    {value : String} (hspells : kind.Spells taken value.toList rest)
    (hafter : before.after kind = some after)
    (hopen : before.opensPattern = true → kind = .expressionOpen → rest.head? ≠ some '{') :
    Lexes before taken rest after (·.map Token.word = [(kind, value)]) := by
  refine .token hspells hafter hopen fun token hkind hvalue => ?_
  rw [List.map_singleton, Token.word, hkind, hvalue]

section Bare

variable {kind : TokenKind} {text : String}

theorem lexes_braced (hkind : kind.IsBare) (h : kind.admits text = true) :
    Lexes .message (['{'] ++ (text.toList ++ ['}'])) [] .message fun tokens =>
      tokens.map Token.word =
        [(.expressionOpen, "\x7b"), (kind, text), (.expressionClose, "\x7d")] := by
  have hspells : kind.Spells text.toList text.toList (['}'] ++ []) :=
    hkind.spells h (stopsAt_cons.2 (by decide))
  have hafter : (Context.expression .message {}).after kind =
      some (.expression .message { atStart := false }) := by
    cases hkind <;> rfl
  have hopening : Lexes .message ['{'] (text.toList ++ ['}'] ++ []) (.expression .message {})
      (·.map Token.word = [(.expressionOpen, "\x7b")]) := .word ⟨rfl, rfl⟩ rfl nofun
  have hliteral := Lexes.word hspells hafter nofun
  have hclosing : Lexes (.expression .message { atStart := false }) ['}'] [] .message
      (·.map Token.word = [(.expressionClose, "\x7d")]) := .word ⟨rfl, rfl⟩ rfl nofun
  refine hopening.append (hliteral.andThen hclosing) ?_
  rintro opening _ hopening ⟨literal, closing, rfl, hliteral, hclosing⟩
  rw [List.map_append, List.map_append, hopening, hliteral, hclosing]
  rfl

/-- **Between braces**, just the texts that pass the test are scanned as bare literals. -/
theorem tokenizesBraced_iff (hkind : kind.IsBare) :
    TokenizesBraced kind text ↔ kind.admits text = true := by
  constructor
  · intro hwords
    cases htokenize : tokenize ("\x7b" ++ text ++ "\x7d") with
    | error e =>
      rw [TokenizesBraced, htokenize] at hwords
      cases hwords
    | ok tokens =>
      rw [TokenizesBraced, htokenize] at hwords
      refine hkind.admits_of_mem ("\x7b" ++ text ++ "\x7d") ?_
      rw [← (tokenize_eq_ok_iff.1 htokenize).1, Except.ok.inj hwords]
      exact .tail _ (.head _)
  · intro h
    obtain ⟨tokens, path, hwords⟩ := lexes_braced hkind h .start
    have hbegins : Context.beginsComplex (['{'] ++ (text.toList ++ ['}'])) = false :=
      not_beginsComplex_braced ((hkind.beginsItem (hkind.spells h stopsAt_nil)).append _)
    have hsource : ("\x7b" ++ text ++ "\x7d").toList = ['{'] ++ (text.toList ++ ['}']) := by
      simp [String.toList_append]
    rw [List.append_nil] at path
    rw [TokenizesBraced, tokenize_of_path (by rw [hsource, hbegins]; exact path)]
    rw [Except.map, List.map_append, hwords]
    rfl

theorem lexes_spaced (hkind : kind.IsBare) (h : kind.admits text = true) (behind : List Char) :
    Lexes .header ([' '] ++ text.toList) (' ' :: behind) .header fun tokens =>
      tokens.map Token.word = [(.blank, " "), (kind, text)] := by
  have hspells : kind.Spells text.toList text.toList (' ' :: behind) :=
    hkind.spells h (stopsAt_cons.2 (by decide))
  have hafter : Context.header.after kind = some .header := by
    cases hkind <;> rfl
  have hblank : TokenKind.blank.Spells [' '] " ".toList (text.toList ++ ' ' :: behind) :=
    ⟨rfl, ⟨by decide, List.all_eq_true.1 (by decide)⟩, (hkind.beginsItem hspells).stopsAt_blank⟩
  refine (Lexes.word hblank rfl nofun).append (.word hspells hafter nofun)
    fun _ _ hblank hliteral => ?_
  exact List.map_append.trans (congrArg₂ _ hblank hliteral)

/-- **Between spaces in a header**, just the texts that pass the test are scanned as bare
literals. -/
theorem tokenizesSpaced_iff (hkind : kind.IsBare) {source : String} {front : List Token}
    {position : Position} {behind : List Char} (path : Cursor.Path (.ofSource source) front
      ⟨.header, position, ' ' :: (text.toList ++ ' ' :: behind)⟩) :
    TokenizesSpaced kind text source front position behind ↔ kind.admits text = true := by
  constructor
  · intro hwords
    refine hkind.admits_of_mem source ?_
    rw [hwords]
    exact List.mem_append_right _ (.tail _ (.head _))
  · intro h
    obtain ⟨tokens, later, hwords⟩ := lexes_spaced hkind h behind position
    rw [TokenizesSpaced, tokenizeAll, Cursor.tokens_of_path (path.append later), List.map_append,
      List.map_append, hwords, List.append_assoc]
    rfl

end Bare

/-! ### The tests, the grammar and the scanner -/

/-- **A printer and a scanner agree on numbers and names.**  The test for numbers is the grammar of
numbers, and between braces, or between spaces wherever a key may stand, a text is scanned as a
number or as a name just if it passes the test. -/
theorem bareLiterals_exact (text : String) :
    (isNumberLiteral text = true ↔ IsNumber text.toList) ∧
      (isNumberLiteral text = true ↔ TokenizesBraced .numberLiteral text) ∧
      (isName text = true ↔ TokenizesBraced .nameLiteral text) ∧
      ∀ source front position behind,
        Cursor.Path (.ofSource source) front
          ⟨.header, position, ' ' :: (text.toList ++ ' ' :: behind)⟩ →
        (isNumberLiteral text = true ↔
          TokenizesSpaced .numberLiteral text source front position behind) ∧
        (isName text = true ↔
          TokenizesSpaced .nameLiteral text source front position behind) := by
  have hnumber : TokenKind.numberLiteral.admits text = isNumberLiteral text := rfl
  have hname : TokenKind.nameLiteral.admits text = isName text := rfl
  rw [← hnumber, ← hname]
  refine ⟨isNumber_toList.symm, (tokenizesBraced_iff .number).symm,
    (tokenizesBraced_iff .name).symm, fun source front position behind path => ?_⟩
  exact ⟨(tokenizesSpaced_iff .number path).symm, (tokenizesSpaced_iff .name path).symm⟩

/-- Near misses, which neither the test nor the scanner takes for a number. -/
example : ["01", "1.", "1e+", "1.2.3", "0x1", "1a"].all (!isNumberLiteral ·) = true := by
  decide +kernel

/-- A matcher with a number for a key. -/
def keySource : String := ".match \x7b$x\x7d 1.5 \x7b\x7b\x7d\x7d"

/-- Behind the selector of the matcher there is the number as a key, and not as a name. -/
theorem bareLiterals_exact_key :
    TokenizesSpaced .numberLiteral "1.5" keySource ((Cursor.ofSource keySource).take 5)
        ⟨11, 1, 12⟩ ['\x7b', '\x7b', '\x7d', '\x7d'] ∧
      ¬ TokenizesSpaced .nameLiteral "1.5" keySource ((Cursor.ofSource keySource).take 5)
        ⟨11, 1, 12⟩ ['\x7b', '\x7b', '\x7d', '\x7d'] := by
  have hstop : (Cursor.ofSource keySource).next.2.next.2.next.2.next.2.next.2 =
      ⟨.header, ⟨11, 1, 12⟩, ' ' :: ("1.5".toList ++ ' ' :: ['\x7b', '\x7b', '\x7d', '\x7d'])⟩ := by
    decide +kernel
  have path : Cursor.Path (.ofSource keySource) ((Cursor.ofSource keySource).take 5)
      (Cursor.ofSource keySource).next.2.next.2.next.2.next.2.next.2 :=
    .cons (by decide +kernel) (.cons (by decide +kernel) (.cons (by decide +kernel)
      (.cons (by decide +kernel) (.cons (by decide +kernel) (.nil _)))))
  rw [hstop] at path
  obtain ⟨hnumber, hname⟩ := (bareLiterals_exact "1.5").2.2.2 _ _ _ _ path
  exact ⟨hnumber.1 (by decide +kernel), fun h => absurd (hname.2 h) (by decide +kernel)⟩

end MessageFormat
