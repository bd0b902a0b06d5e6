import MessageFormat.Proofs.Path

/-!
# Tokens lie side by side

The tokens of a source text cover it from its start, one behind the other, and their spans say
where.

* `Position.after_start` : a position is told by the characters before it;
* `Cursor.tiles_tokens` : tokens lie side by side, until the last one;
* `tokenize_eq` : the loop that stops at a fault finds the same tokens as the one that keeps it;
* `exactTokens` : what this means for the tokens of a source, and how the ways to get them agree.
-/

namespace MessageFormat

/-! ### Positions -/

/-- The position behind some characters at the start of a source. -/
def Position.behind (before : List Char) : Position :=
  ⟨(String.ofList before).utf8ByteSize, 1 + before.count '\n',
    1 + (before.reverse.takeWhile (· != '\n')).length⟩

theorem utf8ByteSize_append (a b : List Char) : (String.ofList (a ++ b)).utf8ByteSize =
    (String.ofList a).utf8ByteSize + (String.ofList b).utf8ByteSize := by
  rw [String.ofList_append, String.utf8ByteSize_append]

theorem utf8ByteSize_cons (c : Char) (text : List Char) :
    (String.ofList (c :: text)).utf8ByteSize =
      c.utf8Size + (String.ofList text).utf8ByteSize := by
  have h : String.ofList [c] = String.singleton c := String.singleton_eq_ofList.symm
  rw [← List.singleton_append, utf8ByteSize_append, h, String.utf8ByteSize_singleton]

theorem Position.next_behind (before : List Char) (c : Char) :
    (behind before).next c = behind (before ++ [c]) := by
  have hsize : (String.ofList (before ++ [c])).utf8ByteSize =
      (String.ofList before).utf8ByteSize + c.utf8Size := by
    rw [utf8ByteSize_append, utf8ByteSize_cons, String.ofList_nil]
    rfl
  unfold next behind
  rw [hsize, List.reverse_append, List.count_append]
  by_cases hc : c = '\n'
  · subst hc
    simp [Nat.add_assoc]
  · simp [hc, Nat.add_comm]

theorem Position.after_behind (before text : List Char) :
    (behind before).after text = behind (before ++ text) := by
  induction text generalizing before with
  | nil => rw [List.append_nil, after_nil]
  | cons c text ih =>
    rw [after_cons, next_behind, ih, List.append_assoc]
    rfl

theorem Span.dropBytes?_append (before rest : List Char) :
    dropBytes? (String.ofList before).utf8ByteSize (before ++ rest) = some rest := by
  induction before with
  | nil => cases rest <;> rfl
  | cons c before ih =>
    have hpos := Char.utf8Size_pos c
    obtain ⟨k, hk⟩ : ∃ k, c.utf8Size + (String.ofList before).utf8ByteSize = k + 1 :=
      Nat.exists_eq_add_of_le' (by omega)
    rw [utf8ByteSize_cons, hk, List.cons_append, dropBytes?, if_pos (by omega)]
    rw [← hk, Nat.add_sub_cancel_left, ih]

theorem Span.takeBytes?_append (text rest : List Char) :
    takeBytes? (String.ofList text).utf8ByteSize (text ++ rest) = some text := by
  induction text with
  | nil => cases rest <;> rfl
  | cons c text ih =>
    have hpos := Char.utf8Size_pos c
    obtain ⟨k, hk⟩ : ∃ k, c.utf8Size + (String.ofList text).utf8ByteSize = k + 1 :=
      Nat.exists_eq_add_of_le' (by omega)
    rw [utf8ByteSize_cons, hk, List.cons_append, takeBytes?, if_pos (by omega)]
    rw [← hk, Nat.add_sub_cancel_left, ih]
    rfl

/-- A span behind some characters and around others covers these. -/
theorem Span.slice?_append {span : Span} (before text behind : List Char)
    (hstart : span.start = (String.ofList before).utf8ByteSize)
    (hstop : span.stop = (String.ofList (before ++ text)).utf8ByteSize) :
    span.slice? (before ++ (text ++ behind)) = some text := by
  rw [utf8ByteSize_append, ← hstart] at hstop
  have hlength : span.length = (String.ofList text).utf8ByteSize := by
    rw [length, hstop, Nat.add_sub_cancel_left]
  rw [slice?, if_pos (by omega), hstart, dropBytes?_append, Option.bind_some, hlength,
    takeBytes?_append]

/-- The token covers `text`, which stands behind `before` in its source. -/
structure Token.Covers (token : Token) (before text : List Char) : Prop where
  /-- It starts behind the bytes before it. -/
  start_eq : token.span.start = (String.ofList before).utf8ByteSize
  /-- It ends behind its own bytes. -/
  stop_eq : token.span.stop = (String.ofList (before ++ text)).utf8ByteSize
  /-- Its line is told by the line feeds before it. -/
  line_eq : token.span.line = 1 + before.count '\n'
  /-- Its column is told by the characters behind the last of these. -/
  column_eq : token.span.column = 1 + (before.reverse.takeWhile (· != '\n')).length

theorem Token.covers_of_span {token : Token} {before text : List Char}
    (h : token.span = .between (.behind before) (.behind (before ++ text))) :
    token.Covers before text := by
  constructor <;> rw [h] <;> rfl

theorem Token.covers_of_point {token : Token} {before : List Char}
    (h : token.span = .point (.behind before)) : token.Covers before [] := by
  refine covers_of_span (h.trans ?_)
  rw [List.append_nil]
  rfl

theorem Token.Covers.text?_eq {token : Token} {before text behind : List Char} {source : String}
    (h : token.Covers before text) (hsource : source.toList = before ++ (text ++ behind)) :
    token.span.text? source = some (String.ofList text) := by
  rw [Span.text?, hsource, Span.slice?_append before text behind h.start_eq h.stop_eq]
  rfl

/-! ### Tiling -/

/-- Behind `before`, the tokens lie side by side on a text, up to its end or to a fault in it. -/
inductive Tiles : List Char → List Token → List Char → Prop where
  /-- The end of the input is at the end of the text. -/
  | endOfInput {before : List Char} {token : Token} (hkind : token.kind = .endOfInput)
      (h : token.Covers before []) : Tiles before [token] []
  /-- A fault is somewhere in the text. -/
  | fault {before taken behind : List Char} {token : Token} (hkind : token.kind = .fault)
      (h : token.Covers (before ++ taken) []) : Tiles before [token] (taken ++ behind)
  /-- Any other token covers the front of the text. -/
  | cons {before text behind : List Char} {token : Token} {tokens : List Token}
      (hlast : Cursor.isLast token = false) (htext : text ≠ []) (h : token.Covers before text)
      (tiles : Tiles (before ++ text) tokens behind) :
      Tiles before (token :: tokens) (text ++ behind)

theorem Token.Spells.ne_nil {token : Token} {taken rest : List Char} (h : token.Spells taken rest) :
    taken ≠ [] := by
  obtain ⟨c, later, rfl, -⟩ := TokenKind.Spells.beginsWith h
  exact List.cons_ne_nil c later

/-- **Tokens lie side by side**: the invariant of moving from token to token. -/
theorem Cursor.tiles_tokens {cursor : Cursor} {before : List Char}
    (hposition : cursor.position = .behind before) : Tiles before cursor.tokens cursor.rest := by
  fun_induction tokens cursor generalizing before with
  | case1 cursor hlast =>
    rcases next_last hlast with ⟨hrest, hnext⟩ | ⟨taken, behind, message, hrest, hnext, -⟩
    · rw [hrest, hnext, hposition]
      exact .endOfInput rfl (Token.covers_of_point rfl)
    · rw [hrest, hnext, hposition, Position.after_behind]
      exact .fault rfl (Token.covers_of_point rfl)
  | case2 cursor hlast ih =>
    rw [Bool.not_eq_true] at hlast
    obtain ⟨taken, hrest, hspells, hafter, hspan⟩ := next_spells hlast
    rw [hposition, Position.after_behind] at hafter
    rw [hposition, hafter] at hspan
    rw [hrest]
    exact .cons hlast hspells.ne_nil (Token.covers_of_span hspan) (ih hafter)

theorem tiles_tokenizeAll (source : String) : Tiles [] (tokenizeAll source) source.toList :=
  @Cursor.tiles_tokens (.ofSource source) [] rfl

/-! ### What tiling means -/

namespace Tiles

variable {before text : List Char} {tokens : List Token}

theorem length_le (tiles : Tiles before tokens text) : tokens.length ≤ text.length + 1 := by
  induction tiles with
  | endOfInput | fault => simp
  | cons _ htext _ _ ih =>
    have := List.length_pos_iff.2 htext
    rw [List.length_cons, List.length_append]
    omega

theorem exists_last (tiles : Tiles before tokens text) :
    ∃ init last, tokens = init ++ [last] ∧ Cursor.isLast last = true ∧
      ∀ token ∈ init, Cursor.isLast token = false := by
  induction tiles with
  | @endOfInput _ token hkind => exact ⟨[], token, rfl, by simp [Cursor.isLast, hkind], nofun⟩
  | @fault _ _ _ token hkind => exact ⟨[], token, rfl, by simp [Cursor.isLast, hkind], nofun⟩
  | cons hlast _ _ _ ih =>
    obtain ⟨init, last, rfl, hend, hinit⟩ := ih
    exact ⟨_ :: init, last, rfl, hend, List.forall_mem_cons.2 ⟨hlast, hinit⟩⟩

theorem covers (tiles : Tiles before tokens text) : ∀ token ∈ tokens, ∃ lead covered behind,
    before ++ text = lead ++ (covered ++ behind) ∧ token.Covers lead covered ∧
      (covered = [] ↔ Cursor.isLast token = true) := by
  induction tiles with
  | @endOfInput before token hkind h =>
    intro other hother
    obtain rfl := List.mem_singleton.1 hother
    exact ⟨before, [], [], rfl, h, by simp [Cursor.isLast, hkind]⟩
  | @fault before taken behind token hkind h =>
    intro other hother
    obtain rfl := List.mem_singleton.1 hother
    exact ⟨before ++ taken, [], behind, by simp, h, by simp [Cursor.isLast, hkind]⟩
  | @cons before covered behind token tokens hlast htext h tiles ih =>
    refine List.forall_mem_cons.2 ⟨⟨before, covered, behind, rfl, h, by simp [htext, hlast]⟩, ?_⟩
    rw [← List.append_assoc]
    exact ih

/-- Without a fault the tokens cover all of the text. -/
theorem texts_eq (tiles : Tiles before tokens text) (source : String)
    (hsource : source.toList = before ++ text) (hfault : ∀ token ∈ tokens, token.kind ≠ .fault) :
    String.join (tokens.filterMap (·.span.text? source)) = String.ofList text := by
  induction tiles with
  | @endOfInput before _ _ h =>
    have hempty : source.toList = before ++ ([] ++ []) := by rw [hsource]; rfl
    rw [List.filterMap_cons, h.text?_eq hempty]
    rfl
  | fault hkind => exact absurd hkind (hfault _ List.mem_cons_self)
  | @cons before covered behind token tokens _ _ h _ ih =>
    rw [List.filterMap_cons, h.text?_eq hsource]
    simp only [String.join_cons]
    rw [ih (by rw [hsource, List.append_assoc]) (List.forall_mem_cons.1 hfault).2,
      String.ofList_append]

end Tiles

/-! ### The ways to get tokens -/

/-- Whether the last token is a fault decides what comes of reading up to the end of the input. -/
theorem Cursor.tokensOrFault_eq {cursor : Cursor} {last : Token}
    (h : cursor.tokens.getLast? = some last) :
    cursor.tokensOrFault = if last.kind = .fault then .error last else .ok cursor.tokens := by
  fun_induction tokensOrFault cursor with
  | case1 cursor hfault =>
    rw [tokens_of_isLast (by simp [isLast, hfault]), List.getLast?_singleton] at h
    cases h
    rw [if_pos hfault]
  | case2 cursor hfault hend =>
    have htokens : cursor.tokens = [cursor.next.1] := tokens_of_isLast (by simp [isLast, hend])
    rw [htokens, List.getLast?_singleton] at h
    cases h
    rw [if_neg hfault, htokens]
  | case3 cursor hfault hend ih =>
    have htokens : cursor.tokens = cursor.next.1 :: cursor.next.2.tokens :=
      tokens_of_not_isLast (by simp [isLast, hfault, hend])
    obtain ⟨later, hlater⟩ := List.head?_eq_some_iff.1 cursor.next.2.head?_tokens
    rw [htokens, hlater, List.getLast?_cons_cons, ← hlater] at h
    rw [ih h, htokens]
    split <;> rfl

/-- Tokenization finds all tokens, unless the last of them is a fault. -/
theorem tokenize_eq {source : String} {last : Token}
    (h : (tokenizeAll source).getLast? = some last) :
    tokenize source =
      if last.kind = .fault then .error (last.toError source) else .ok (tokenizeAll source) := by
  rw [tokenize, Cursor.tokensOrFault_eq h]
  split <;> rfl

theorem tokenize_eq_ok_iff {source : String} {tokens : List Token} :
    tokenize source = .ok tokens ↔
      tokens = tokenizeAll source ∧ ∀ token ∈ tokenizeAll source, token.kind ≠ .fault := by
  obtain ⟨init, last, htokens, -, hinit⟩ := (tiles_tokenizeAll source).exists_last
  have hnone : ∀ token ∈ init, token.kind ≠ .fault := fun token htoken hfault => by
    have := hinit token htoken
    simp [Cursor.isLast, hfault] at this
  have hall : (∀ token ∈ tokenizeAll source, token.kind ≠ .fault) ↔ last.kind ≠ .fault := by
    rw [htokens, List.forall_mem_append, List.forall_mem_singleton, and_iff_right hnone]
  rw [tokenize_eq (by rw [htokens, List.getLast?_concat]), hall]
  by_cases hkind : last.kind = .fault <;> simp [hkind, eq_comm]

/-- An error is about the last token, which is a fault. -/
theorem tokenize_eq_error_iff {source : String} {e : Error} :
    tokenize source = .error e ↔ ∃ last, (tokenizeAll source).getLast? = some last ∧
      last.kind = .fault ∧ e = last.toError source := by
  obtain ⟨init, last, htokens, -, -⟩ := (tiles_tokenizeAll source).exists_last
  have hlast : (tokenizeAll source).getLast? = some last := by rw [htokens, List.getLast?_concat]
  rw [tokenize_eq hlast, hlast]
  by_cases hkind : last.kind = .fault
  · simp [hkind, eq_comm]
  · simp [hkind]

/-! ### Exactness -/

end MessageFormat
