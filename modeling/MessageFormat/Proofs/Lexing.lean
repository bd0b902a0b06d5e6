import MessageFormat.Message.Printing
import MessageFormat.Proofs.Shape

/-!
# Lexing a stretch of text

A text that stands ahead of another one is lexed as some tokens, which lead from one context into
another.  `Lexes` says so without the tokens themselves, by a property that they have, so that
stretches can be put side by side.

* `Lexes.cons`, `Lexes.append` : a token or a stretch before a stretch;
* `Lexes.repeated` : the texts of items, one behind the other;
* `decodes_escape` : an escaped text spells the text.
-/

namespace MessageFormat

open Scanner

/-- Ahead of `rest`, the text leads from the context `before` into the context `after`, over tokens
of which `P` holds. -/
def Lexes (before : Context) (text rest : List Char) (after : Context) (P : List Token → Prop) :
    Prop :=
  ∀ position, ∃ tokens, Cursor.Path ⟨before, position, text ++ rest⟩ tokens
    ⟨after, position.after text, rest⟩ ∧ P tokens

/-- Some tokens of which `P` holds, and then some of which `Q` holds. -/
def Then (P Q : List Token → Prop) (tokens : List Token) : Prop :=
  ∃ front rear, tokens = front ++ rear ∧ P front ∧ Q rear

/-! ### Stretches side by side -/

/-- What holds ahead of every item holds ahead of them all, or of what follows them. -/
theorem follows_flatMap {α : Type} {print : α → List Char} {follows : List Char → Prop}
    {as : List α} {rest : List Char} (hprint : ∀ a ∈ as, ∀ rest, follows (print a ++ rest))
    (hrest : follows rest) : follows (as.flatMap print ++ rest) := by
  cases as with
  | nil => exact hrest
  | cons a as =>
    rw [List.flatMap_cons, List.append_assoc]
    exact hprint a List.mem_cons_self _

namespace Lexes

variable {before middle after : Context} {text rest : List Char} {P Q R : List Token → Prop}

theorem nil (h : P []) : Lexes before [] rest before P :=
  fun _ => ⟨[], .nil _, h⟩

theorem mono (h : Lexes before text rest after P) (hPQ : ∀ tokens, P tokens → Q tokens) :
    Lexes before text rest after Q := by
  intro position
  obtain ⟨tokens, path, hP⟩ := h position
  exact ⟨tokens, path, hPQ tokens hP⟩

theorem append {front rear : List Char} (hfront : Lexes before front (rear ++ rest) middle P)
    (hrear : Lexes middle rear rest after Q) (hR : ∀ a b, P a → Q b → R (a ++ b)) :
    Lexes before (front ++ rear) rest after R := by
  intro position
  obtain ⟨a, patha, ha⟩ := hfront position
  obtain ⟨b, pathb, hb⟩ := hrear (position.after front)
  refine ⟨a ++ b, ?_, hR a b ha hb⟩
  rw [List.append_assoc, Position.after_append]
  exact patha.append pathb

theorem andThen {front rear : List Char} (hfront : Lexes before front (rear ++ rest) middle P)
    (hrear : Lexes middle rear rest after Q) :
    Lexes before (front ++ rear) rest after (Then P Q) :=
  hfront.append hrear fun a b ha hb => ⟨a, b, rfl, ha, hb⟩

/-- A spelling of a token that there may be leads over that token. -/
theorem token {kind : TokenKind} {taken : List Char} {value : String}
    (hspells : kind.Spells taken value.toList rest) (hafter : before.after kind = some after)
    (hopen : before.opensPattern = true → kind = .expressionOpen → rest.head? ≠ some '{')
    (hP : ∀ token : Token, token.kind = kind → token.value = value → P [token]) :
    Lexes before taken rest after P := by
  intro position
  obtain ⟨c, later, rfl, -⟩ := hspells.beginsWith
  have hnext : Cursor.next ⟨before, position, c :: (later ++ rest)⟩ = _ :=
    Cursor.next_of_scan (Context.scan_of_spells hspells List.cons_append hafter hopen)
  rw [String.ofList_toList] at hnext
  have path : Cursor.Path ⟨before, position, c :: (later ++ rest)⟩ _ _ :=
    .cons (by rw [hnext]; exact Cursor.not_isLast_of_spells hspells) (.nil _)
  rw [hnext] at path
  exact ⟨_, path, hP _ rfl rfl⟩

/-- A token before a stretch. -/
theorem cons {kind : TokenKind} {taken : List Char} {value : String}
    (hspells : kind.Spells taken value.toList (text ++ rest))
    (hafter : before.after kind = some middle)
    (hopen : before.opensPattern = true → kind = .expressionOpen →
      (text ++ rest).head? ≠ some '{')
    (later : Lexes middle text rest after P)
    (hQ : ∀ token tokens, token.kind = kind → token.value = value → P tokens →
      Q (token :: tokens)) : Lexes before (taken ++ text) rest after Q := by
  have hfront : Lexes before taken (text ++ rest) middle fun front =>
      ∃ token : Token, front = [token] ∧ token.kind = kind ∧ token.value = value :=
    token hspells hafter hopen fun token hkind hvalue => ⟨token, rfl, hkind, hvalue⟩
  refine hfront.append later ?_
  rintro _ tokens ⟨token, rfl, hkind, hvalue⟩ hP
  exact hQ token tokens hkind hvalue hP

/-- A space is a separator where blanks may stand. -/
theorem space (hafter : before.after .blank = some before) (hstop : StopsAt isBlank rest) :
    Lexes before [' '] rest before Separator := by
  have hspells : TokenKind.blank.Spells [' '] " ".toList rest :=
    ⟨rfl, ⟨by decide, List.all_eq_true.1 (by decide)⟩, hstop⟩
  refine token hspells hafter nofun fun token hkind hvalue => .space ?_
  rw [Token.isSeparator, Token.isBlank, hkind, hvalue]
  rfl

/-- A space before the text of an item. -/
theorem behindSpace {α : Type} {item : List Token → α → Prop} {a : α}
    (hafter : before.after .blank = some before) (hstop : StopsAt isBlank (text ++ rest))
    (later : Lexes before text rest after (item · a)) :
    Lexes before ([' '] ++ text) rest after (Behind Separator item · a) :=
  (space hafter hstop).append later fun _ _ hseparator h => .intro hseparator h

/-- The texts of items, one behind the other.  Each of them may stand before what follows it. -/
theorem repeated {α : Type} {item : List Token → α → Prop} {print : α → List Char}
    {as : List α} (follows : List Char → Prop)
    (hitem : ∀ a ∈ as, ∀ rest, follows rest → Lexes before (print a) rest before (item · a))
    (hprint : ∀ a ∈ as, ∀ rest, follows (print a ++ rest)) (hrest : follows rest) :
    Lexes before (as.flatMap print) rest before (Repeated item · as) := by
  induction as with
  | nil => exact nil .nil
  | cons a as ih =>
    rw [List.forall_mem_cons] at hitem hprint
    have hfirst := hitem.1 _ (follows_flatMap hprint.2 hrest)
    rw [List.flatMap_cons]
    exact hfirst.append (ih hitem.2 hprint.2) fun _ _ h later => .cons h later

end Lexes

/-! ### Escapes -/

theorem toList_escape (special : Char → Bool) (text : String) :
    (escape special text).toList =
      text.toList.flatMap fun c => if special c then ['\\', c] else [c] := by
  rw [escape, String.toList_ofList]

/-- An escaped text spells the text, if all its characters stand for themselves or are escaped. -/
theorem decodes_escape {plain special : Char → Bool} {text : List Char}
    (hspecial : ∀ c, special c = true → isEscapable c = true)
    (hplain : ∀ c ∈ text, special c = false → plain c = true) :
    Decodes plain (text.flatMap fun c => if special c then ['\\', c] else [c]) text := by
  induction text with
  | nil => exact .nil
  | cons c text ih =>
    rw [List.forall_mem_cons] at hplain
    rw [List.flatMap_cons]
    cases hc : special c with
    | true => exact (ih hplain.2).escape (hspecial c hc)
    | false => exact (ih hplain.2).plain (hplain.1 hc)

theorem decodes_escapeText {text : String} (h : '\x00' ∉ text.toList) :
    Decodes isTextChar (escapeText text).toList text.toList := by
  rw [escapeText, toList_escape]
  refine decodes_escape (fun c hc => ?_) fun c hmem hc => ?_
  · simp only [Bool.or_eq_true, beq_iff_eq] at hc
    rcases hc with (rfl | rfl) | rfl <;> rfl
  · simp only [Bool.or_eq_false_iff, beq_eq_false_iff_ne] at hc
    exact isTextChar_iff.2 ⟨fun hnul => h (hnul ▸ hmem), hc.1.1, hc.1.2, hc.2⟩

theorem decodes_escapeQuoted {text : String} (h : '\x00' ∉ text.toList) :
    Decodes isQuotedChar (escapeQuoted text).toList text.toList := by
  rw [escapeQuoted, toList_escape]
  refine decodes_escape (fun c hc => ?_) fun c hmem hc => ?_
  · simp only [Bool.or_eq_true, beq_iff_eq] at hc
    rcases hc with rfl | rfl <;> rfl
  · simp only [Bool.or_eq_false_iff, beq_eq_false_iff_ne] at hc
    exact isQuotedChar_iff.2 ⟨fun hnul => h (hnul ▸ hmem), hc.1, hc.2⟩

/-- A character that stands for itself in a reserved body cannot be escaped, so that the text of the
body has no other spelling. -/
theorem Decodes.eq_escape {spelling text : List Char} (h : Decodes isReservedChar spelling text) :
    spelling = text.flatMap fun c => if isEscapable c then ['\\', c] else [c] := by
  induction h with
  | nil => rfl
  | @plain c spelling text hc _ ih =>
    have hescape : isEscapable c = false := by
      have hother : ∀ d ∈ ['\\', '{', '|', '}'], (c == d) = false :=
        forall_beq_false_of hc (by decide)
      simp only [List.forall_mem_cons] at hother
      simp only [isEscapable, hother, Bool.or_self]
    rw [List.flatMap_cons, hescape, ← ih]
    rfl
  | escape hc _ ih =>
    rw [List.flatMap_cons, hc, ← ih]
    rfl

theorem toList_printQuoted (text : String) :
    (printQuoted text).toList = '|' :: ((escapeQuoted text).toList ++ ['|']) := by
  rw [printQuoted, String.toList_append, String.toList_append]
  rfl

theorem spells_printQuoted {text : String} {rest : List Char} (h : '\x00' ∉ text.toList) :
    TokenKind.quotedLiteral.Spells (printQuoted text).toList text.toList rest :=
  ⟨_, toList_printQuoted text, decodes_escapeQuoted h⟩

/-! ### Delimiters -/

/-- A character that a reserved body may stand before. -/
def endsBody (c : Char) : Bool := c == ' ' || c == '}'

/-- A character that a name or a number may stand before. -/
def isDelimiter (c : Char) : Bool := endsBody c || c == '=' || c == '/'

theorem isDelimiter_of_endsBody (c : Char) (h : endsBody c = true) : isDelimiter c = true := by
  rw [isDelimiter, h]
  rfl

/-- A character that a printed item may begin with: it is no blank, and no brace that would make
two of a brace before it. -/
def beginsItem (c : Char) : Bool := !isBlank c && c != '{'

theorem beginsItem_of {p : Char → Bool} {c : Char} (hc : p c = true)
    (hp : leavesOut p ('{' :: blanks) = true) : beginsItem c = true := by
  have hblank : leavesOut p blanks = true := (Bool.and_eq_true_iff.1 hp).2
  have hbrace := eq_false_of_leavesOut hp List.mem_cons_self
  simp only [beginsItem, not_isBlank hc hblank, bne, beq_false_of hc '{' hbrace, Bool.not_false,
    Bool.and_self]

namespace BeginsWith

variable {p q : Char → Bool} {text rest : List Char}

theorem mono (h : BeginsWith p text) (hpq : ∀ c, p c = true → q c = true) : BeginsWith q text := by
  obtain ⟨c, later, rfl, hc⟩ := h
  exact ⟨c, later, rfl, hpq c hc⟩

theorem append (h : BeginsWith p text) (rest : List Char) : BeginsWith p (text ++ rest) := by
  obtain ⟨c, later, rfl, hc⟩ := h
  exact ⟨c, later ++ rest, rfl, hc⟩

theorem stopsAt (h : BeginsWith p text) (hpq : ∀ c, p c = true → q c = false) :
    StopsAt q (text ++ rest) := by
  obtain ⟨c, later, rfl, hc⟩ := h
  exact stopsAt_cons.2 (hpq c hc)

theorem stopsAt_blank (h : BeginsWith beginsItem text) : StopsAt isBlank (text ++ rest) := by
  refine h.stopsAt fun c hc => ?_
  rw [beginsItem, Bool.and_eq_true, Bool.not_eq_true'] at hc
  exact hc.1

theorem head?_ne_brace (h : BeginsWith beginsItem text) : (text ++ rest).head? ≠ some '{' := by
  obtain ⟨c, later, rfl, hc⟩ := h
  rintro ⟨⟩
  exact absurd hc (by decide)

theorem stopsAt_name (h : BeginsWith isDelimiter rest) : StopsAt isNameChar rest := by
  rw [← List.append_nil rest]
  refine h.stopsAt fun c hc => ?_
  simp only [isDelimiter, endsBody, Bool.or_eq_true, beq_iff_eq] at hc
  rcases hc with ((rfl | rfl) | rfl) | rfl <;> decide

theorem stopsAt_reserved (h : BeginsWith endsBody rest) : StopsAt (goesOn isReservedChar) rest := by
  rw [← List.append_nil rest]
  refine h.stopsAt fun c hc => ?_
  simp only [endsBody, Bool.or_eq_true, beq_iff_eq] at hc
  rcases hc with rfl | rfl <;> decide

theorem not_qualifies (h : BeginsWith isDelimiter rest) : ¬ Qualifies rest := by
  obtain ⟨c, later, rfl, hc⟩ := h
  rintro ⟨_, _, ⟨⟩, -⟩
  exact absurd hc (by decide)

end BeginsWith

theorem spellsName {sigil : List Char} {name : String} {rest : List Char}
    (h : isName name = true) (hrest : BeginsWith isDelimiter rest) :
    SpellsName sigil (sigil ++ name.toList) name.toList rest :=
  ⟨rfl, isName_toList.2 h, hrest.stopsAt_name⟩

theorem Identifier.WellShaped.spells {sigil : List Char} {identifier : Identifier}
    {rest : List Char} (h : identifier.WellShaped) (hrest : BeginsWith isDelimiter rest) :
    SpellsIdentifier sigil (sigil ++ identifier.text.toList) identifier.text.toList rest :=
  ⟨rfl, h.isIdentifier_text, hrest.stopsAt_name, fun _ => hrest.not_qualifies⟩

end MessageFormat
