import MessageFormat.Token.Cursor

/-!
# Reading from tokens

Reading takes the longest item off the front of a list of tokens and returns the tokens behind it,
or says what it would have taken in the stead of the next token.  An *item* is something that may be
there or not; `many` reads items until there is none.

* `length_many_le` : reading many items takes a part of the tokens;
* `many_eq_ok_iff` : reading many items is a chain of items that ends where no further one is.
-/

namespace MessageFormat

/-- Why tokens cannot be read: the kinds that could have stood somewhere, and the token that stands
there, `none` at the end of the tokens. -/
structure Mismatch where
  /-- The kinds that could have stood there. -/
  expected : List TokenKind
  /-- The token that stands there. -/
  found : Option Token
deriving DecidableEq, Repr

variable {α : Type}

/-- The outcome of finding none of the expected kinds at the front of the tokens. -/
def mismatch (expected : List TokenKind) (tokens : List Token) : Except Mismatch α :=
  .error ⟨expected, tokens.head?⟩

/-! ### Single tokens -/

/-- The tokens without the run of blanks at their front. -/
def skipBlank : List Token → List Token
  | [] => []
  | token :: rest => if token.isBlank then rest else token :: rest

/-- Checks that the tokens begin with a separator.  If not, the token that it should be before is at
fault. -/
def requireSeparator (tokens : List Token) : Except Mismatch Unit :=
  if tokens.head?.any Token.isSeparator then .ok () else mismatch [.blank] (skipBlank tokens)

/-- Reads a token of a kind. -/
def expect (kind : TokenKind) : List Token → Except Mismatch (Token × List Token)
  | [] => mismatch [kind] []
  | token :: rest =>
    if token.kind = kind then .ok (token, rest) else mismatch [kind] (token :: rest)

/-- Checks that there are no tokens. -/
def expectEnd (tokens : List Token) : Except Mismatch Unit :=
  if tokens.isEmpty then .ok () else mismatch [.endOfInput] tokens

theorem length_skipBlank_le (tokens : List Token) : (skipBlank tokens).length ≤ tokens.length := by
  unfold skipBlank
  split
  · simp
  · split <;> simp

theorem length_expect_lt {kind : TokenKind} {tokens rest : List Token} {token : Token}
    (h : expect kind tokens = .ok (token, rest)) : rest.length < tokens.length := by
  cases tokens with
  | nil => simp [expect, mismatch] at h
  | cons head tail =>
    simp only [expect] at h
    split at h
    · simp only [Except.ok.injEq, Prod.mk.injEq] at h
      simp [h.2]
    · simp [mismatch] at h

/-! ### Repetition -/

/-- Items take at least one token each. -/
def Shortens (item : List Token → Except Mismatch (Option (α × List Token))) : Prop :=
  ∀ tokens a rest, item tokens = .ok (some (a, rest)) → rest.length < tokens.length

/-- Reads items until there is none. -/
def many (item : List Token → Except Mismatch (Option (α × List Token)))
    (shortens : Shortens item) (tokens : List Token) : Except Mismatch (List α × List Token) :=
  match _h : item tokens with
  | .error e => .error e
  | .ok none => .ok ([], tokens)
  | .ok (some (a, rest)) => (many item shortens rest).map fun (as, rest) => (a :: as, rest)
termination_by tokens.length
decreasing_by exact shortens _ _ _ _h

section Many

variable {item : List Token → Except Mismatch (Option (α × List Token))} {shortens : Shortens item}
  {tokens : List Token}

theorem many_of_error {m : Mismatch} (h : item tokens = .error m) :
    many item shortens tokens = .error m := by
  unfold many
  split <;> simp_all

theorem many_of_none (h : item tokens = .ok none) :
    many item shortens tokens = .ok ([], tokens) := by
  unfold many
  split <;> simp_all

theorem many_of_some {a : α} {rest : List Token} (h : item tokens = .ok (some (a, rest))) :
    many item shortens tokens =
      (many item shortens rest).map fun (as, last) => (a :: as, last) := by
  rw [many]
  split <;> simp_all

end Many

/-- A chain of items from some tokens to the tokens behind the last item. -/
inductive Chain (item : List Token → Except Mismatch (Option (α × List Token))) :
    List Token → List α → List Token → Prop where
  /-- No item is left. -/
  | nil {tokens : List Token} (h : item tokens = .ok none) : Chain item tokens [] tokens
  /-- An item and the chain behind it. -/
  | cons {tokens : List Token} {a : α} {rest : List Token} {as : List α} {last : List Token}
      (h : item tokens = .ok (some (a, rest))) (chain : Chain item rest as last) :
      Chain item tokens (a :: as) last

theorem many_eq_ok_iff {item : List Token → Except Mismatch (Option (α × List Token))}
    {shortens : Shortens item} {tokens rest : List Token} {as : List α} :
    many item shortens tokens = .ok (as, rest) ↔ Chain item tokens as rest := by
  constructor
  · intro h
    fun_induction many item shortens tokens generalizing as with
    | case1 tokens e he => simp at h
    | case2 tokens hnone =>
      simp only [Except.ok.injEq, Prod.mk.injEq] at h
      obtain ⟨rfl, rfl⟩ := h
      exact .nil hnone
    | case3 tokens a middle hsome ih =>
      cases hmany : many item shortens middle with
      | error e => simp [hmany, Except.map] at h
      | ok pair =>
        obtain ⟨bs, last⟩ := pair
        simp only [hmany, Except.map, Except.ok.injEq, Prod.mk.injEq] at h
        obtain ⟨rfl, rfl⟩ := h
        exact .cons hsome (ih hmany)
  · intro chain
    induction chain with
    | nil h => exact many_of_none h
    | cons h _ ih =>
      rw [many_of_some h, ih]
      rfl

/-- Behind many items there is no further one. -/
theorem item_of_many {item : List Token → Except Mismatch (Option (α × List Token))}
    {shortens : Shortens item} {tokens rest : List Token} {as : List α}
    (h : many item shortens tokens = .ok (as, rest)) : item rest = .ok none := by
  have chain := many_eq_ok_iff.1 h
  clear h
  induction chain with
  | nil hnone => exact hnone
  | cons _ _ ih => exact ih

theorem length_le_of_chain {item : List Token → Except Mismatch (Option (α × List Token))}
    (shortens : Shortens item) {tokens rest : List Token} {as : List α}
    (h : Chain item tokens as rest) :
    rest.length ≤ tokens.length := by
  induction h with
  | nil => exact Nat.le_refl _
  | cons h _ ih => exact Nat.le_trans ih (Nat.le_of_lt (shortens _ _ _ h))

theorem length_many_le {item : List Token → Except Mismatch (Option (α × List Token))}
    {shortens : Shortens item} {tokens rest : List Token} {as : List α}
    (h : many item shortens tokens = .ok (as, rest)) :
    rest.length ≤ tokens.length :=
  length_le_of_chain shortens (many_eq_ok_iff.1 h)

end MessageFormat
