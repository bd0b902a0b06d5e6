import MessageFormat.Message.Reading

/-!
# Reserved bodies token by token

A reserved body can be put together from its end, as `BodyPiece.ofTokens` does, or one token at a
time from its start.  Then blanks are held back until a further piece shows that they are inside the
body.  Both give the same pieces.

* `BodyScan` : a reserved body as far as it has been taken;
* `BodyScan.pieces_foldl_push` : its pieces in the end are those of `BodyPiece.ofTokens`;
* `BodyScan.isBehindBlank_foldl_push` : and it tells whether the last token was a blank.
-/

namespace MessageFormat

/-- The pieces with a text behind them, joined to the last piece if that is a text too. -/
def BodyPiece.append (pieces : List BodyPiece) (text : String) : List BodyPiece :=
  match pieces.getLast? with
  | some (.text last) => pieces.dropLast ++ [.text (last ++ text)]
  | _ => pieces ++ [.text text]

/-- A reserved body, as far as it has been taken. -/
structure BodyScan where
  /-- The pieces. -/
  pieces : List BodyPiece
  /-- The blanks behind the pieces, which belong to the body if a further piece follows. -/
  pending : String
  /-- Whether the last token was a blank. -/
  isBehindBlank : Bool

namespace BodyScan

/-- Nothing has been taken. -/
def start : BodyScan := ⟨[], "", false⟩

/-- The body with one more token, if that belongs to it.  Blanks in front of the first piece are
dropped. -/
def push? (scan : BodyScan) (token : Token) : Option BodyScan :=
  match token.kind with
  | .blank =>
    some ⟨scan.pieces, if scan.pieces.isEmpty then scan.pending else scan.pending ++ token.value,
      true⟩
  | .reservedText => some ⟨BodyPiece.append scan.pieces (scan.pending ++ token.value), "", false⟩
  | .quotedLiteral =>
    let pieces :=
      if scan.pending.isEmpty then scan.pieces else BodyPiece.append scan.pieces scan.pending
    some ⟨pieces ++ [.quoted token.value], "", false⟩
  | _ => none

end BodyScan

/-! ### Texts side by side -/

namespace BodyPiece

variable (pieces more : List BodyPiece) (first second pending text : String)

theorem append_ne_nil : append pieces text ≠ [] := by
  unfold append
  split <;> simp

theorem append_concat_text :
    append (pieces ++ [.text first]) second = pieces ++ [.text (first ++ second)] := by
  rw [append, List.getLast?_concat, List.dropLast_concat]

theorem append_concat_quoted :
    append (pieces ++ [.quoted first]) text = pieces ++ [.quoted first, .text text] := by
  rw [append, List.getLast?_concat, List.append_assoc]
  rfl

theorem append_append : append (append pieces first) second = append pieces (first ++ second) := by
  rcases List.eq_nil_or_concat pieces with rfl | ⟨init, last | last, rfl⟩
  · exact append_concat_text [] first second
  · rw [List.concat_eq_append, append_concat_text, append_concat_text, append_concat_text,
      String.append_assoc]
  · have hjoined := append_concat_text (init ++ [.quoted last]) first second
    rw [List.append_assoc, List.append_assoc] at hjoined
    rw [List.concat_eq_append, append_concat_quoted, append_concat_quoted]
    exact hjoined

/-- The pieces with further ones behind them, and with blanks in between, which are dropped if
nothing is behind them. -/
def join : List BodyPiece → List BodyPiece
  | [] => pieces
  | .text text :: more => append pieces (pending ++ text) ++ more
  | .quoted text :: more =>
    (if pending.isEmpty then pieces else append pieces pending) ++ .quoted text :: more

theorem join_nil : join [] "" more = more := by
  rcases more with _ | ⟨text | text, more⟩
  · rfl
  · rw [join, String.empty_append]
    rfl
  · rfl

theorem join_prepend :
    join pieces pending (prepend text more) = join (append pieces (pending ++ text)) "" more := by
  rcases more with _ | ⟨next | next, more⟩
  · exact List.append_nil _
  · rw [prepend, join, join, append_append, String.empty_append, String.append_assoc]
  · rfl

theorem join_concat_quoted :
    join (pieces ++ [.quoted text]) "" more = pieces ++ .quoted text :: more := by
  rcases more with _ | ⟨next | next, more⟩
  · rfl
  · rw [join, String.empty_append, append_concat_quoted, List.append_assoc]
    rfl
  · exact List.append_assoc _ _ _

variable {pieces more pending text}

/-- Blanks that were held back become a text of their own, or a part of one. -/
theorem join_append (htext : text ≠ "") (hmore : more ≠ []) :
    join pieces (pending ++ text) more = join pieces pending (prepend text more) := by
  rcases more with _ | ⟨next | next, more⟩
  · exact absurd rfl hmore
  · rw [prepend, join, join, String.append_assoc]
  · have hpending : (pending ++ text).isEmpty = false := by
      rw [← Bool.not_eq_true, String.isEmpty_iff, String.append_eq_empty_iff]
      exact fun h => htext h.2
    change (if (pending ++ text).isEmpty then _ else _) ++ _ = _
    rw [hpending]
    rfl

/-! ### Bodies -/

theorem prepend_ne_nil (pieces : List BodyPiece) (text : String) : prepend text pieces ≠ [] := by
  rcases pieces with _ | ⟨next | next, pieces⟩ <;> exact List.cons_ne_nil _ _

/-- Nothing but blanks makes no pieces. -/
theorem ofTokens_eq_nil_iff {tokens : List Token} :
    ofTokens tokens = [] ↔ tokens.all Token.isBlank = true := by
  induction tokens with
  | nil => exact ⟨fun _ => rfl, fun _ => rfl⟩
  | cons token rest ih =>
    rw [ofTokens, List.all_cons]
    split
    · rename_i hquoted
      have hblank : token.isBlank = false := by
        rw [Token.isBlank, hquoted]
        rfl
      rw [hblank]
      exact ⟨nofun, nofun⟩
    · split
      · rename_i hdropped
        rw [ih, (Bool.and_eq_true_iff.1 hdropped).1, Bool.true_and]
      · rename_i hkept
        refine ⟨fun h => absurd h (prepend_ne_nil _ _), fun h => absurd ?_ hkept⟩
        rw [Bool.and_eq_true_iff] at h ⊢
        exact ⟨h.1, Bool.or_eq_true_iff.2 (.inl h.2)⟩

end BodyPiece

namespace BodyScan

variable {scan : BodyScan} {token : Token} {tokens : List Token}

/-- The body with one more token, which must belong to it. -/
def push (scan : BodyScan) (token : Token) : BodyScan := (scan.push? token).getD scan

theorem push?_eq (scan : BodyScan) (token : Token) :
    scan.push? token = if token.isOfBody then some (scan.push token) else none := by
  rw [push, push?, Token.isOfBody]
  cases token.kind <;> rfl

theorem push_blank (hkind : token.kind = .blank) (hscan : scan.pieces ≠ []) :
    scan.push token = ⟨scan.pieces, scan.pending ++ token.value, true⟩ := by
  rw [push, push?, hkind, Option.getD_some, if_neg (fun h => hscan (List.isEmpty_iff.1 h))]

theorem push_reservedText (hkind : token.kind = .reservedText) : scan.push token =
    ⟨BodyPiece.append scan.pieces (scan.pending ++ token.value), "", false⟩ := by
  rw [push, push?, hkind]
  rfl

theorem push_quotedLiteral (hkind : token.kind = .quotedLiteral) : scan.push token =
    ⟨(if scan.pending.isEmpty then scan.pieces else BodyPiece.append scan.pieces scan.pending) ++
      [.quoted token.value], "", false⟩ := by
  rw [push, push?, hkind]
  rfl

theorem kind_of_isOfBody (h : token.isOfBody = true) :
    token.kind = .blank ∨ token.kind = .reservedText ∨ token.kind = .quotedLiteral := by
  simpa only [Token.isOfBody, Bool.or_eq_true, beq_iff_eq, or_assoc] using h

theorem isBehindBlank_push (h : token.isOfBody = true) :
    (scan.push token).isBehindBlank = token.isBlank := by
  rcases kind_of_isOfBody h with hkind | hkind | hkind <;>
    rw [push, push?, Token.isBlank, hkind] <;> rfl

/-- In the end it is known whether the last token was a blank. -/
theorem isBehindBlank_foldl_push (h : tokens.all Token.isOfBody = true) :
    (tokens.foldl push start).isBehindBlank = tokens.getLast?.any Token.isBlank := by
  rcases List.eq_nil_or_concat tokens with rfl | ⟨init, last, rfl⟩
  · rfl
  · rw [List.concat_eq_append] at h ⊢
    rw [List.foldl_append, List.foldl_cons, List.foldl_nil, List.getLast?_concat,
      isBehindBlank_push]
    · rfl
    · exact List.all_eq_true.1 h last (by simp)

/-- The pieces in the end, unless blanks come first: those there are, joined to those that the
tokens make by themselves. -/
theorem pieces_foldl_push_eq_join (h : tokens.all Token.isOfBody = true)
    (hscan : scan.pieces ≠ [] ∨ tokens.head?.any Token.isBlank = false) :
    (tokens.foldl push scan).pieces =
      BodyPiece.join scan.pieces scan.pending (BodyPiece.ofTokens tokens) := by
  induction tokens generalizing scan with
  | nil => rfl
  | cons token rest ih =>
    obtain ⟨htoken, hrest⟩ := Bool.and_eq_true_iff.1 (List.all_cons ▸ h)
    rw [List.foldl_cons, BodyPiece.ofTokens]
    rcases kind_of_isOfBody htoken with hkind | hkind | hkind
    · have hblank : token.isBlank = true := beq_iff_eq.2 hkind
      have hpieces : scan.pieces ≠ [] := by
        refine hscan.resolve_right fun hhead => ?_
        rw [List.head?_cons, Option.any_some, hblank] at hhead
        cases hhead
      have hbehind := @ih ⟨scan.pieces, scan.pending ++ token.value, true⟩ hrest (.inl hpieces)
      rw [if_neg (by rw [hkind]; nofun), hblank, Bool.true_and, push_blank hkind hpieces, hbehind]
      split
      · rename_i hdropped
        rcases Bool.or_eq_true_iff.1 hdropped with hall | hempty
        · rw [BodyPiece.ofTokens_eq_nil_iff.2 hall]
          rfl
        · rw [String.isEmpty_iff.1 hempty, String.append_empty]
      · rename_i hkept
        rw [Bool.or_eq_true_iff, not_or] at hkept
        exact BodyPiece.join_append (fun h => hkept.2 (String.isEmpty_iff.2 h))
          (fun h => hkept.1 (BodyPiece.ofTokens_eq_nil_iff.1 h))
    · have hblank : token.isBlank = false := by
        rw [Token.isBlank, hkind]
        rfl
      rw [if_neg (by rw [hkind]; nofun), hblank, Bool.false_and, if_neg Bool.false_ne_true,
        push_reservedText hkind, ih hrest (.inl (BodyPiece.append_ne_nil _ _)),
        BodyPiece.join_prepend]
    · rw [if_pos hkind, push_quotedLiteral hkind, ih hrest (.inl (by simp)),
        BodyPiece.join_concat_quoted]
      rfl

/-- **From the start, the pieces in the end are those that the tokens behind the first blanks make by
themselves.** -/
theorem pieces_foldl_push (h : tokens.all Token.isOfBody = true) (isBehindBlank : Bool) :
    (tokens.foldl push ⟨[], "", isBehindBlank⟩).pieces =
      BodyPiece.ofTokens (tokens.dropWhile Token.isBlank) := by
  induction tokens generalizing isBehindBlank with
  | nil => rfl
  | cons token rest ih =>
    obtain ⟨-, hrest⟩ := Bool.and_eq_true_iff.1 (List.all_cons ▸ h)
    by_cases hblank : token.isBlank = true
    · have hpush : push ⟨[], "", isBehindBlank⟩ token = ⟨[], "", true⟩ := by
        rw [push, push?, beq_iff_eq.1 hblank]
        rfl
      rw [List.foldl_cons, hpush, ih hrest, List.dropWhile_cons, if_pos hblank]
    · rw [List.dropWhile_cons, if_neg hblank, pieces_foldl_push_eq_join h, BodyPiece.join_nil]
      exact .inr (Bool.eq_false_iff.2 hblank)

end BodyScan

end MessageFormat
