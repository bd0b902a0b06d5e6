import MessageFormat.Proofs.Contexts
import MessageFormat.Token.Cursor

/-!
# Paths of a cursor

A cursor moves from token to token until it meets the last one.  `Cursor.Path` is a stretch of that
way, over tokens none of which is the last.

* `Cursor.next_spells` : what one step takes, a spelling of the token, and where it leads;
* `Cursor.exists_path` : the tokens from a cursor on are those of a path and the last one behind it.
-/

namespace MessageFormat

/-- Ahead of `rest`, the characters `taken` spell the token. -/
def Token.Spells (token : Token) (taken rest : List Char) : Prop :=
  token.kind.Spells taken token.value.toList rest

namespace Cursor

/-! ### Steps -/

theorem not_isLast_of_spells {token : Token} {taken rest : List Char}
    (h : token.Spells taken rest) : isLast token = false := by
  cases hkind : token.kind
  case endOfInput | fault =>
    rw [Token.Spells, hkind] at h
    exact absurd h id
  all_goals
    rw [isLast, hkind]
    rfl

theorem next_of_scan {context after : Context} {position : Position} {c : Char}
    {rest taken value behind : List Char} {kind : TokenKind}
    (h : context.scan c rest = ⟨taken, behind, .ok ⟨kind, value, after⟩⟩) :
    next ⟨context, position, c :: rest⟩ =
      (⟨kind, String.ofList value, .between position (position.after taken)⟩,
        ⟨after, position.after taken, behind⟩) := by
  simp only [next, h]

theorem next_of_fault {context : Context} {position : Position} {c : Char}
    {rest taken behind : List Char} {fault : Fault}
    (h : context.scan c rest = ⟨taken, behind, .error fault⟩) :
    next ⟨context, position, c :: rest⟩ =
      (⟨.fault, fault.message, .point (position.after taken)⟩,
        ⟨context, position.after taken, []⟩) := by
  simp only [next, h]

/-- A step over a token that is not the last takes a spelling of it. -/
theorem next_spells {cursor : Cursor} (h : isLast cursor.next.1 = false) :
    ∃ taken, cursor.rest = taken ++ cursor.next.2.rest ∧
      cursor.next.1.Spells taken cursor.next.2.rest ∧
      cursor.next.2.position = cursor.position.after taken ∧
      cursor.next.1.span = .between cursor.position cursor.next.2.position := by
  obtain ⟨context, position, rest⟩ := cursor
  cases rest with
  | nil => cases h
  | cons c rest =>
    have hcovers := (Context.takes_scan context c rest).covers
    cases hscan : context.scan c rest with
    | mk taken behind result =>
      cases result with
      | error fault =>
        rw [next_of_fault hscan] at h
        cases h
      | ok lexeme =>
        rw [hscan] at hcovers
        rw [next_of_scan hscan]
        refine ⟨taken, hcovers.symm, ?_, rfl, rfl⟩
        have hspells := Context.spells_of_scan hscan
        rwa [Token.Spells, String.toList_ofList]

/-- A step leads into the context behind a token of its kind. -/
theorem next_after {cursor : Cursor} (hstart : cursor.context ≠ .start)
    (h : isLast cursor.next.1 = false) :
    cursor.context.after cursor.next.1.kind = some cursor.next.2.context := by
  obtain ⟨context, position, rest⟩ := cursor
  cases rest with
  | nil => cases h
  | cons c rest =>
    cases hscan : context.scan c rest with
    | mk taken behind result =>
      cases result with
      | error fault =>
        rw [next_of_fault hscan] at h
        cases h
      | ok lexeme =>
        rw [next_of_scan hscan]
        exact (Context.spelled_scan hstart c rest taken behind lexeme hscan).2

/-- A last token is the end of the input at the end of the text, or a fault that ends it. -/
theorem next_last {cursor : Cursor} (h : isLast cursor.next.1 = true) :
    (cursor.rest = [] ∧ cursor.next = (⟨.endOfInput, "", .point cursor.position⟩, cursor)) ∨
      ∃ taken behind message, cursor.rest = taken ++ behind ∧
        cursor.next.1 = ⟨.fault, message, .point (cursor.position.after taken)⟩ ∧
        cursor.next.2 = ⟨cursor.context, cursor.position.after taken, []⟩ := by
  obtain ⟨context, position, rest⟩ := cursor
  cases rest with
  | nil => exact .inl ⟨rfl, rfl⟩
  | cons c rest =>
    have hcovers := (Context.takes_scan context c rest).covers
    cases hscan : context.scan c rest with
    | mk taken behind result =>
      rw [hscan] at hcovers
      cases result with
      | error fault =>
        rw [next_of_fault hscan]
        exact .inr ⟨taken, behind, fault.message, hcovers.symm, rfl, rfl⟩
      | ok lexeme =>
        have hspells := Context.spells_of_scan hscan
        rw [← String.toList_ofList (l := lexeme.value)] at hspells
        have hlast : isLast ⟨lexeme.kind, String.ofList lexeme.value,
          .between position (position.after taken)⟩ = false := not_isLast_of_spells hspells
        rw [next_of_scan hscan, hlast] at h
        cases h

/-! ### Paths -/

/-- The cursor moves over the tokens, none of which is the last. -/
inductive Path : Cursor → List Token → Cursor → Prop where
  /-- It stays where it is. -/
  | nil (cursor : Cursor) : Path cursor [] cursor
  /-- It moves over the next token and then on. -/
  | cons {cursor stop : Cursor} {tokens : List Token} (h : isLast cursor.next.1 = false)
      (path : Path cursor.next.2 tokens stop) : Path cursor (cursor.next.1 :: tokens) stop

theorem Path.append {cursor middle stop : Cursor} {a b : List Token} (ha : Path cursor a middle)
    (hb : Path middle b stop) : Path cursor (a ++ b) stop := by
  induction ha with
  | nil => exact hb
  | cons h _ ih => exact .cons h (ih hb)

/-- A path over some tokens and then others has a place between them. -/
theorem Path.exists_middle {cursor stop : Cursor} {a b : List Token}
    (path : Path cursor (a ++ b) stop) : ∃ middle, Path cursor a middle ∧ Path middle b stop := by
  induction a generalizing cursor with
  | nil => exact ⟨cursor, .nil cursor, path⟩
  | cons token a ih =>
    cases path with
    | cons h path =>
      obtain ⟨middle, ha, hb⟩ := ih path
      exact ⟨middle, .cons h ha, hb⟩

theorem Path.not_isLast {cursor stop : Cursor} {tokens : List Token}
    (path : Path cursor tokens stop) : ∀ token ∈ tokens, isLast token = false := by
  induction path with
  | nil => nofun
  | cons h _ ih => exact List.forall_mem_cons.2 ⟨h, ih⟩

theorem tokens_of_isLast {cursor : Cursor} (h : isLast cursor.next.1 = true) :
    cursor.tokens = [cursor.next.1] := by
  rw [tokens, dif_pos h]

theorem tokens_of_not_isLast {cursor : Cursor} (h : isLast cursor.next.1 = false) :
    cursor.tokens = cursor.next.1 :: cursor.next.2.tokens := by
  rw [tokens, dif_neg (by rw [h]; decide)]

/-- The first token is the next one, whether or not it is the last. -/
theorem head?_tokens (cursor : Cursor) : cursor.tokens.head? = some cursor.next.1 := by
  cases h : isLast cursor.next.1 with
  | true => rw [tokens_of_isLast h, List.head?_cons]
  | false => rw [tokens_of_not_isLast h, List.head?_cons]

/-- Where two cursors move on in the same way, they find the same tokens. -/
theorem tokens_eq_of_next {a b : Cursor} (htoken : a.next.1 = b.next.1)
    (hnext : isLast a.next.1 = false → a.next.2 = b.next.2) : a.tokens = b.tokens := by
  cases hlast : isLast a.next.1 with
  | true =>
    have hother : isLast b.next.1 = true := by rw [← htoken, hlast]
    rw [tokens_of_isLast hlast, tokens_of_isLast hother, htoken]
  | false =>
    have hother : isLast b.next.1 = false := by rw [← htoken, hlast]
    rw [tokens_of_not_isLast hlast, tokens_of_not_isLast hother, htoken, hnext hlast]

theorem tokens_of_path {cursor stop : Cursor} {tokens : List Token}
    (path : Path cursor tokens stop) : cursor.tokens = tokens ++ stop.tokens := by
  induction path with
  | nil => rfl
  | @cons cursor stop tokens h path ih =>
    rw [tokens_of_not_isLast h, ih]
    rfl

/-- The tokens from a cursor on are those of a path and the last one behind it. -/
theorem exists_path (cursor : Cursor) :
    ∃ tokens stop, Path cursor tokens stop ∧ isLast stop.next.1 = true ∧
      cursor.tokens = tokens ++ [stop.next.1] := by
  fun_induction tokens cursor with
  | case1 cursor h => exact ⟨[], cursor, .nil cursor, h, rfl⟩
  | case2 cursor h ih =>
    obtain ⟨tokens, stop, path, hlast, htokens⟩ := ih
    exact ⟨_, stop, .cons (Bool.eq_false_iff.2 h) path, hlast, by rw [htokens]; rfl⟩

end Cursor

end MessageFormat
