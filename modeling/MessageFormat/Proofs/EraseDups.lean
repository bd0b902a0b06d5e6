import Mathlib.Data.List.Nodup

/-!
# Lists without their repetitions

`List.eraseDups` keeps of each item the first occurrence.  It goes on behind an item with what is
left without that item, so a list is taken apart in the same way here.

* `nodup_eraseDups` : nothing is repeated any more;
* `find?_eraseDups` : the first item with a property stays the first;
* `idxOf_eraseDups_lt_iff` : of two items the one that comes first stays the first.
-/

namespace MessageFormat

/-- To show something of all lists, it may be taken for granted of what is left of a list without
its first item. -/
theorem eraseDups_induction {α : Type} [BEq α] {motive : List α → Prop} (nil : motive [])
    (cons : ∀ a items, motive (items.filter (!· == a)) → motive (a :: items)) :
    ∀ items, motive items
  | [] => nil
  | a :: items => cons a items (eraseDups_induction nil cons _)
termination_by items => items.length
decreasing_by exact Nat.lt_succ_of_le (List.length_filter_le _ items)

variable {α : Type} [BEq α] [LawfulBEq α] {a b : α}

theorem nodup_eraseDups (items : List α) : items.eraseDups.Nodup := by
  induction items using eraseDups_induction with
  | nil => exact List.nodup_nil
  | cons a items ih =>
    rw [List.eraseDups_cons, List.nodup_cons]
    exact ⟨by simp, ih⟩

theorem find?_eraseDups (items : List α) (p : α → Bool) :
    items.eraseDups.find? p = items.find? p := by
  induction items using eraseDups_induction with
  | nil => rfl
  | cons a items ih =>
    rw [List.eraseDups_cons, List.find?_cons, List.find?_cons, ih, List.find?_filter]
    cases ha : p a with
    | true => rfl
    | false =>
      -- what was left out does not have the property either
      refine congrArg (List.find? · items) (funext fun other => ?_)
      by_cases heq : other = a <;> simp [heq, ha]

theorem idxOf_filter_lt_iff {p : α → Bool} (ha : p a = true) (hb : p b = true) (items : List α) :
    (items.filter p).idxOf a < (items.filter p).idxOf b ↔ items.idxOf a < items.idxOf b := by
  induction items with
  | nil => rfl
  | cons item items ih =>
    by_cases hp : p item = true
    · rw [List.filter_cons_of_pos hp]
      simp only [List.idxOf_cons]
      cases item == a <;> cases item == b <;> simp [ih]
    · -- the item that is left out is neither of the two
      have hne {c : α} (hc : p c = true) : (item == c) = false :=
        beq_false_of_ne fun heq => hp (heq ▸ hc)
      rw [List.filter_cons_of_neg hp, ih, List.idxOf_cons, List.idxOf_cons, hne ha, hne hb]
      simp

theorem idxOf_eraseDups_lt_iff (items : List α) :
    items.eraseDups.idxOf a < items.eraseDups.idxOf b ↔ items.idxOf a < items.idxOf b := by
  induction items using eraseDups_induction with
  | nil => rfl
  | cons item items ih =>
    rw [List.eraseDups_cons]
    simp only [List.idxOf_cons]
    cases ha : item == a with
    | true => cases item == b <;> simp
    | false =>
      cases hb : item == b with
      | true => simp
      | false =>
        have hkept {c : α} (hc : (item == c) = false) : (!c == item) = true := by
          rw [BEq.comm, hc]
          rfl
        simp only [cond_false, Nat.add_lt_add_iff_right]
        exact ih.trans (idxOf_filter_lt_iff (p := (!· == item)) (hkept ha) (hkept hb) items)

end MessageFormat
