import Mathlib.Data.List.TakeWhile
import MessageFormat.Proofs.Mismatches
import MessageFormat.Proofs.Walk

/-!
# What a cursor does with tokens

A reading takes tokens off the front of a list; a walk moves a cursor over a tape.  Where the tape
has a mark at its end, the cursor stands before the tokens that the reading is left with, and the
two can be compared.

* `Mirrors` : a walk comes to the result of a reading, with the cursor before the tokens that the
  reading leaves, or it halts with the error of its mismatch, and for no other reason;
* `Mirrors.bind` : this is kept from one step to the next;
* `mirrors_loop` : and by a loop whose rounds read one item each.  If items take tokens, rounds move
  the cursor forward.
-/

namespace MessageFormat

variable {α β σ : Type}

/-! ### Marked tapes -/

/-- A tape with a mark of its end, and with spans that start between characters of its source. -/
structure MarkedTape extends Tape where
  /-- The tokens in front of the mark. -/
  front : List Token
  /-- The first token that marks the end of the input. -/
  mark : Token
  /-- The tokens behind the mark. -/
  behind : List Token
  /-- These are all of the tokens. -/
  tokens_eq : tokens = front ++ mark :: behind
  /-- The mark is one. -/
  kind_mark : mark.kind = .endOfInput
  /-- There is none before it. -/
  kind_ne : ∀ token ∈ front, token.kind ≠ .endOfInput
  /-- The line of every token can be cut out of the source. -/
  startsApart : ∀ token ∈ tokens, token.span.StartsApart source

namespace MarkedTape

variable {tape : MarkedTape} {rest left : List Token} {token : Token}

/-- The index of the first of the tokens `rest` that are left in front of the mark, which is that of
the mark if none is left. -/
def indexOf (tape : MarkedTape) (rest : List Token) : Nat := tape.front.length - rest.length

/-- The token at the front of those that are left, or else the mark. -/
def headOf (tape : MarkedTape) (rest : List Token) : Token := rest.head?.getD tape.mark

theorem drop_indexOf (h : rest <:+ tape.front) :
    tape.tokens.drop (tape.indexOf rest) = rest ++ tape.mark :: tape.behind := by
  obtain ⟨taken, htaken⟩ := h
  have hindex : tape.indexOf rest = taken.length := by
    rw [indexOf, ← htaken, List.length_append, Nat.add_sub_cancel]
  rw [tape.tokens_eq, ← htaken, List.append_assoc, hindex, List.drop_left]

theorem indexOf_lt (h : rest <:+ tape.front) :
    tape.indexOf rest < tape.tokens.length := by
  have := h.length_le
  rw [indexOf, tape.tokens_eq, List.length_append, List.length_cons]
  omega

theorem indexOf_cons (h : token :: rest <:+ tape.front) :
    tape.indexOf (token :: rest) + 1 = tape.indexOf rest := by
  have := h.length_le
  rw [List.length_cons] at this
  rw [indexOf, indexOf, List.length_cons]
  omega

/-- The fewer tokens are left, the further on the cursor is. -/
theorem indexOf_lt_indexOf (h : rest <:+ tape.front) (hlt : left.length < rest.length) :
    tape.indexOf rest < tape.indexOf left := by
  have := h.length_le
  rw [indexOf, indexOf]
  omega

theorem getElem?_indexOf (h : rest <:+ tape.front) :
    tape.tokens[tape.indexOf rest]? = some (tape.headOf rest) := by
  rw [← List.head?_drop, drop_indexOf h]
  cases rest <;> rfl

theorem headOf_mem (h : rest <:+ tape.front) : tape.headOf rest ∈ tape.tokens :=
  List.mem_of_getElem? (getElem?_indexOf h)

theorem kind_head_ne (h : token :: rest <:+ tape.front) : token.kind ≠ .endOfInput :=
  tape.kind_ne token (h.mem List.mem_cons_self)

theorem kind_mark_ne (kind : TokenKind) (h : kind ≠ .endOfInput) : tape.mark.kind ≠ kind := by
  rw [tape.kind_mark]
  exact h.symm

end MarkedTape

/-! ### Walks and readings -/

/-- From the first of the tokens `rest` that are left, the walk does what the reading of them does:
it comes to the same result, with the cursor at the first of the tokens that the reading leaves, or
it halts with the error of the mismatch. -/
inductive Mirrors (tape : MarkedTape) (rest : List Token) (walk : Walk α) :
    Except Mismatch (α × List Token) → Prop where
  /-- Both have a result. -/
  | ok {a : α} {left : List Token} (hleft : left <:+ tape.front)
      (h : walk tape.toTape (tape.indexOf rest) = .ok (a, tape.indexOf left)) :
      Mirrors tape rest walk (.ok (a, left))
  /-- Neither has one. -/
  | error {m : Mismatch} (h : walk tape.toTape (tape.indexOf rest) =
      .error (.error (m.toError tape.mark tape.source))) :
      Mirrors tape rest walk (.error m)

section Mirrors

variable {tape : MarkedTape} {rest left : List Token} {walk : Walk α} {next : α → Walk β}

namespace Walk

theorem bind_of_ok {tape : Tape} {index last : Nat} {a : α} (h : walk tape index = .ok (a, last)) :
    (walk >>= next) tape index = next a tape last := by
  simp only [bind, h]

theorem bind_of_error {tape : Tape} {index : Nat} {halt : Halt}
    (h : walk tape index = .error halt) : (walk >>= next) tape index = .error halt := by
  simp only [bind, h]

end Walk

namespace Mirrors

/-- A walk does the same as another one from elsewhere. -/
theorem of_eq {other : Walk α} {outcome : Except Mismatch (α × List Token)}
    (h : Mirrors tape left other outcome)
    (heq : walk tape.toTape (tape.indexOf rest) = other tape.toTape (tape.indexOf left)) :
    Mirrors tape rest walk outcome := by
  cases h with
  | ok hleft h => exact ok hleft (heq.trans h)
  | error h => exact error (heq.trans h)

theorem pure {a : α} (h : rest <:+ tape.front) :
    Mirrors tape rest (pure a) (.ok (a, rest)) := ok h rfl

theorem bind {x : Except Mismatch (α × List Token)}
    {f : α × List Token → Except Mismatch (β × List Token)} (hx : Mirrors tape rest walk x)
    (hf : ∀ a left, left <:+ tape.front → Mirrors tape left (next a) (f (a, left))) :
    Mirrors tape rest (walk >>= next) (x >>= f) := by
  cases hx with
  | ok hleft h => exact (hf _ _ hleft).of_eq (Walk.bind_of_ok h)
  | error h => exact error (Walk.bind_of_error h)

/-- A step that always succeeds, and what is behind it. -/
theorem andThen {a : α} {outcome : Except Mismatch (β × List Token)}
    (hx : Mirrors tape rest walk (.ok (a, left)))
    (hf : left <:+ tape.front → Mirrors tape left (next a) outcome) :
    Mirrors tape rest (walk >>= next) outcome := by
  cases hx with
  | ok hleft h => exact (hf hleft).of_eq (Walk.bind_of_ok h)

/-- A step that always fails, whatever is behind it. -/
theorem fails {m : Mismatch} (hx : Mirrors tape rest walk (.error m)) :
    Mirrors tape rest (walk >>= next) (.error m) := by
  cases hx with
  | error h => exact error (Walk.bind_of_error h)

/-- A result is put into another form. -/
theorem map {x : Except Mismatch (α × List Token)} (hx : Mirrors tape rest walk x) (f : α → β) :
    Mirrors tape rest (walk >>= fun a => Pure.pure (f a))
      (x.map fun (a, left) => (f a, left)) := by
  cases hx with
  | ok hleft h => exact ok hleft (Walk.bind_of_ok h)
  | error h => exact error (Walk.bind_of_error h)

/-- What is behind a walk whose result or place differs from the reading's in form. -/
theorem bindMap {γ : Type} {x : Except Mismatch γ} {g : γ → α × List Token}
    {f : γ → Except Mismatch (β × List Token)} (hx : Mirrors tape rest walk (x.map g))
    (hf : ∀ c, x = .ok c → (g c).2 <:+ tape.front →
      Mirrors tape (g c).2 (next (g c).1) (f c)) :
    Mirrors tape rest (walk >>= next) (x >>= f) := by
  cases x with
  | error m => exact hx.fails
  | ok c => exact hx.andThen (hf c rfl)

end Mirrors

end Mirrors

/-! ### Moves -/

section Moves

variable {tape : MarkedTape} {rest : List Token} {token : Token} {expected : List TokenKind}

theorem Walk.moveTo_eq {tape : Tape} {index last : Nat} (h : last < tape.tokens.length) :
    Walk.moveTo last tape index = .ok ((), last) :=
  if_pos h

theorem mirrors_current (h : rest <:+ tape.front) :
    Mirrors tape rest Walk.current (.ok (tape.headOf rest, rest)) := by
  refine .ok h ?_
  have hindex := tape.indexOf_lt h
  rw [Walk.current, Nat.min_eq_left (by omega), tape.getElem?_indexOf h]

/-- The token at the cursor is the first of those that are left, or the mark if none is left. -/
theorem Mirrors.ofCurrent {next : Token → Walk β} {outcome : Except Mismatch (β × List Token)}
    (h : rest <:+ tape.front) (hnil : rest = [] → Mirrors tape [] (next tape.mark) outcome)
    (hcons : ∀ token behind, rest = token :: behind → token :: behind <:+ tape.front →
      Mirrors tape (token :: behind) (next token) outcome) :
    Mirrors tape rest (Walk.current >>= next) outcome := by
  refine (mirrors_current h).andThen fun h => ?_
  cases rest with
  | nil => exact hnil rfl
  | cons token behind => exact hcons token behind rfl h

theorem mirrors_advance (h : token :: rest <:+ tape.front) :
    Mirrors tape (token :: rest) Walk.advance (.ok ((), rest)) := by
  have hrest := (List.suffix_cons token rest).trans h
  have hlt := tape.indexOf_lt hrest
  refine .ok hrest ?_
  rw [Walk.advance, tape.indexOf_cons h, if_pos hlt, Walk.moveTo_eq hlt]

theorem mirrors_backUp (h : token :: rest <:+ tape.front) :
    Mirrors tape rest Walk.backUp (.ok ((), token :: rest)) := by
  refine .ok h ?_
  rw [Walk.backUp, ← tape.indexOf_cons h, Nat.add_sub_cancel, Walk.moveTo_eq (tape.indexOf_lt h)]

theorem mirrors_peekNonBlank (h : rest <:+ tape.front) :
    Mirrors tape rest Walk.peekNonBlank
      (.ok (tape.headOf (rest.dropWhile Token.isBlank), rest)) := by
  refine .ok h ?_
  have hmark : tape.mark.isBlank = false := by
    rw [Token.isBlank, tape.kind_mark]
    rfl
  have hfind : (tape.tokens.drop (tape.indexOf rest)).find? (!·.isBlank) =
      some (tape.headOf (rest.dropWhile Token.isBlank)) := by
    rw [tape.drop_indexOf h, List.find?_append, List.find?_eq_head?_dropWhile_not,
      List.find?_cons_of_pos (by rw [hmark]; rfl)]
    simp only [Bool.not_not, MarkedTape.headOf]
    cases (rest.dropWhile Token.isBlank).head? <;> rfl
  rw [Walk.peekNonBlank, if_pos (tape.indexOf_lt h).le, hfind]

theorem mirrors_unexpectedAt (h : rest <:+ tape.front) {left : List Token} :
    Mirrors tape left (Walk.unexpectedAt (tape.headOf rest) expected : Walk α)
      (mismatch expected rest) := by
  refine .error ?_
  rw [Walk.unexpectedAt, Span.sourceLine?_eq (tape.startsApart _ (tape.headOf_mem h))]
  rfl

theorem mirrors_unexpected (h : rest <:+ tape.front) :
    Mirrors tape rest (Walk.unexpected expected : Walk α) (mismatch expected rest) :=
  (mirrors_current h).andThen fun h => mirrors_unexpectedAt h

/-- A token of a kind other than the mark's is taken as a reading takes it. -/
theorem mirrors_demand (kind : TokenKind) (hkind : kind ≠ .endOfInput) (h : rest <:+ tape.front) :
    Mirrors tape rest (Walk.demand kind) (expect kind rest) := by
  refine .ofCurrent h ?_ ?_
  · rintro rfl
    rw [if_neg (tape.kind_mark_ne kind hkind)]
    exact mirrors_unexpected h
  · rintro token behind rfl h
    rw [expect]
    split
    · exact (mirrors_advance h).andThen .pure
    · exact mirrors_unexpected h

/-! ### Blanks -/

/-- What is between the cursor and the next token that is no blank, if this is one run. -/
def spacingOf : List Token → Spacing
  | [] => .absent
  | token :: _ =>
    if token.isBlank then if token.isSeparator then .space else .marks else .absent

theorem mirrors_takeBlank (h : rest <:+ tape.front) :
    Mirrors tape rest Walk.takeBlank (.ok (spacingOf rest, skipBlank rest)) := by
  refine .ofCurrent h ?_ ?_
  · rintro rfl
    rw [if_neg (tape.kind_mark_ne .blank nofun)]
    exact .pure h
  · rintro token behind rfl h
    by_cases hblank : token.kind = .blank
    · have hisBlank : token.isBlank = true := beq_iff_eq.2 hblank
      rw [if_pos hblank, spacingOf, if_pos hisBlank, skipBlank, if_pos hisBlank]
      exact (mirrors_advance h).andThen .pure
    · have hisBlank : ¬token.isBlank = true := fun hisBlank => hblank (beq_iff_eq.1 hisBlank)
      rw [if_neg hblank, spacingOf, if_neg hisBlank, skipBlank, if_neg hisBlank]
      exact .pure h

/-- Blanks that were taken are given back. -/
theorem mirrors_putBack {behind : List Token} (h : rest <:+ tape.front)
    (hskip : skipBlank rest = behind) :
    Mirrors tape behind (Walk.putBack (spacingOf rest)) (.ok ((), rest)) := by
  subst hskip
  cases rest with
  | nil => exact .pure h
  | cons token rest =>
    rw [skipBlank, spacingOf]
    by_cases hisBlank : token.isBlank = true
    · rw [if_pos hisBlank, if_pos hisBlank, Walk.putBack, if_pos (by split <;> rfl)]
      exact mirrors_backUp h
    · rw [if_neg hisBlank, if_neg hisBlank]
      exact .pure h

/-- Behind blanks, a separator is demanded as it is required before them. -/
theorem mirrors_demandSpace {walk : Walk α} {outcome : Except Mismatch (α × List Token)}
    {behind : List Token} (h : rest <:+ tape.front) (hskip : skipBlank rest = behind)
    (hwalk : Mirrors tape behind walk outcome) :
    Mirrors tape behind (Walk.demandSpace (spacingOf rest) >>= fun _ => walk)
      (requireSeparator rest >>= fun _ => outcome) := by
  subst hskip
  have hbehind := (skipBlank_suffix rest).trans h
  have hspace : spacingOf rest = .space ↔ rest.head?.any Token.isSeparator = true := by
    cases rest with
    | nil => exact ⟨nofun, nofun⟩
    | cons token rest =>
      change (if token.isBlank then _ else _) = _ ↔ token.isSeparator = true
      rw [Token.isSeparator]
      cases token.isBlank <;> cases token.value.toList.any isSpace <;> decide
  rw [Walk.demandSpace, requireSeparator]
  by_cases hseparator : rest.head?.any Token.isSeparator = true
  · rw [if_pos (hspace.2 hseparator), if_pos hseparator]
    exact (Mirrors.pure hbehind).andThen fun _ => hwalk
  · rw [if_neg (fun h => hseparator (hspace.1 h)), if_neg hseparator]
    exact (mirrors_unexpected hbehind).fails

end Moves

/-! ### Loops -/

section Loops

variable {tape : MarkedTape} {item : List Token → Except Mismatch (Option (α × List Token))}

/-- What a round of a loop comes to that reads an item: it goes on with the item put to its state, or
it ends as `exit` says. -/
def roundOutcome (push : α → σ) (exit : Except Mismatch (β × List Token)) :
    Except Mismatch (Option (α × List Token)) → Except Mismatch ((σ ⊕ β) × List Token)
  | .error m => .error m
  | .ok none => exit.map fun (b, left) => (.inr b, left)
  | .ok (some (a, left)) => .ok (.inl (push a), left)

/-- **A loop whose rounds read an item each reads items until there is none.**  It never gets stuck,
because items take tokens. -/
theorem mirrors_loop (shortens : Shortens item) {round : σ → Walk (σ ⊕ β)} (push : σ → α → σ)
    (exit : σ → List Token → Except Mismatch (β × List Token))
    (hround : ∀ state rest, rest <:+ tape.front → Mirrors tape rest (round state)
      (roundOutcome (push state) (exit state rest) (item rest)))
    (state : σ) {rest : List Token} (h : rest <:+ tape.front) :
    Mirrors tape rest (Walk.loop round state)
      (many item shortens rest >>= fun (as, left) => exit (as.foldl push state) left) := by
  fun_induction many item shortens rest generalizing state with
  | case1 rest m hm =>
    have hfirst := hround state rest h
    rw [hm] at hfirst
    cases hfirst with
    | error hwalk =>
      refine .error ?_
      rw [Walk.loop, hwalk]
  | case2 rest hnone =>
    have hfirst := hround state rest h
    rw [hnone] at hfirst
    change Mirrors tape rest _ (exit state rest)
    rw [roundOutcome] at hfirst
    generalize exit state rest = outcome at hfirst
    cases outcome with
    | error m =>
      cases hfirst with
      | error hwalk =>
        refine .error ?_
        rw [Walk.loop, hwalk]
    | ok pair =>
      cases hfirst with
      | ok hleft hwalk =>
        refine .ok hleft ?_
        rw [Walk.loop, hwalk]
  | case3 rest a middle hsome ih =>
    have hfirst := hround state rest h
    rw [hsome] at hfirst
    cases hfirst with
    | ok hmiddle hwalk =>
      -- the item has taken a token, so the cursor is further on
      have hforward := tape.indexOf_lt_indexOf h (shortens _ _ _ hsome)
      have hloop : Walk.loop round state tape.toTape (tape.indexOf rest) =
          Walk.loop round (push state a) tape.toTape (tape.indexOf middle) := by
        rw [Walk.loop, hwalk]
        exact if_pos ⟨hforward, tape.indexOf_lt hmiddle⟩
      have hbehind := ih (push state a) hmiddle
      generalize many item shortens middle = outcome at hbehind
      cases outcome <;> exact hbehind.of_eq hloop

/-- An outcome of an item as the outcome of a walk, which is left with `behind` if there is no
item. -/
def itemOutcome (behind : List Token) :
    Except Mismatch (Option (α × List Token)) → Except Mismatch (Option α × List Token)
  | .error m => .error m
  | .ok none => .ok (none, behind)
  | .ok (some (a, left)) => .ok (some a, left)

theorem foldl_snoc (items as : List α) :
    as.foldl (fun items a => items ++ [a]) items = items ++ as := by
  rw [List.foldl_append_eq_append, ← List.flatMap_def, List.flatMap_singleton']

/-- Items are collected as they are read.  The last walk finds none, and may have gone on in vain from
the tokens `rest` to the tokens `settle rest`. -/
theorem mirrors_collect (shortens : Shortens item) {walk : Walk (Option α)}
    (settle : List Token → List Token)
    (hitem : ∀ rest, rest <:+ tape.front →
      Mirrors tape rest walk (itemOutcome (settle rest) (item rest)))
    (items : List α) {rest : List Token} (h : rest <:+ tape.front) :
    Mirrors tape rest (Walk.collect walk items)
      ((many item shortens rest).map fun (as, left) => (items ++ as, settle left)) := by
  have hround : ∀ items rest, rest <:+ tape.front → Mirrors tape rest (Walk.itemRound walk items)
      (roundOutcome (fun a => items ++ [a]) (.ok (items, settle rest)) (item rest)) := by
    intro items rest h
    have hfirst := hitem rest h
    generalize item rest = outcome at hfirst
    rcases outcome with m | _ | ⟨a, left⟩
    · exact hfirst.fails
    · exact hfirst.andThen fun h => .pure h
    · exact hfirst.andThen fun h => .pure h
  have hloop := mirrors_loop shortens (fun items a => items ++ [a])
    (fun items left => .ok (items, settle left)) hround items h
  generalize many item shortens rest = outcome at hloop
  rcases outcome with m | ⟨as, left⟩
  · exact hloop
  · change Mirrors tape rest (Walk.collect walk items) (.ok (items ++ as, settle left))
    rw [← foldl_snoc]
    exact hloop

/-- Items are collected as they are read, if the last walk finds none without having gone on. -/
theorem mirrors_many (shortens : Shortens item) {walk : Walk (Option α)}
    (hitem : ∀ rest, rest <:+ tape.front → Mirrors tape rest walk (itemOutcome rest (item rest)))
    {rest : List Token} (h : rest <:+ tape.front) :
    Mirrors tape rest (Walk.collect walk []) (many item shortens rest) := by
  have hcollect := mirrors_collect shortens id hitem [] h
  generalize many item shortens rest = outcome at hcollect
  cases outcome <;> exact hcollect

end Loops

end MessageFormat
