/-!
# Maps from names

A finite map from names to values, kept in the order of the names: by code point, which is also the
order of their UTF-8 bytes.  The order is part of the type, so a map is determined by its look-ups
and everything that lists one lists it in the same order.

* `NameMap.find?_insert` : what an insertion changes;
* `NameMap.ext` : maps with the same look-ups are equal.
-/

namespace MessageFormat

/-- A finite map from names, in the order of the names. -/
structure NameMap (α : Type) where
  /-- The entries, in ascending order of their names. -/
  entries : List (String × α)
  /-- Each name is before all the names that follow it. -/
  sorted : entries.Pairwise fun a b => a.1 < b.1

namespace NameMap

variable {α : Type}

/-- The map without entries. -/
def empty : NameMap α := ⟨[], .nil⟩

instance : EmptyCollection (NameMap α) := ⟨empty⟩

instance : Inhabited (NameMap α) := ⟨empty⟩

instance [BEq α] : BEq (NameMap α) := ⟨fun a b => a.entries == b.entries⟩

/-- The value under a name. -/
def find? (map : NameMap α) (name : String) : Option α := map.entries.lookup name

/-- Whether there is a value under a name. -/
def contains (map : NameMap α) (name : String) : Bool := (map.find? name).isSome

/-- The number of entries. -/
def size (map : NameMap α) : Nat := map.entries.length

/-- Whether there are no entries. -/
def isEmpty (map : NameMap α) : Bool := map.entries.isEmpty

/-- The names, in ascending order. -/
def names (map : NameMap α) : List String := map.entries.map (·.1)

/-! ### Insertion -/

/-- Puts an entry in its place, in the stead of one of the same name. -/
def insertEntry (name : String) (value : α) : List (String × α) → List (String × α)
  | [] => [(name, value)]
  | (other, x) :: rest =>
    if name < other then (name, value) :: (other, x) :: rest
    else if name = other then (name, value) :: rest
    else (other, x) :: insertEntry name value rest

theorem eq_or_mem_of_mem_insertEntry {name : String} {value : α} {entry : String × α}
    {entries : List (String × α)} (h : entry ∈ insertEntry name value entries) :
    entry = (name, value) ∨ entry ∈ entries := by
  induction entries with
  | nil => simpa [insertEntry] using h
  | cons head rest ih =>
    obtain ⟨other, x⟩ := head
    grind [insertEntry]

theorem sorted_insertEntry (name : String) (value : α) {entries : List (String × α)}
    (h : entries.Pairwise fun a b => a.1 < b.1) :
    (insertEntry name value entries).Pairwise fun a b => a.1 < b.1 := by
  induction entries with
  | nil => simp [insertEntry]
  | cons head rest ih =>
    obtain ⟨other, x⟩ := head
    obtain ⟨hhead, hrest⟩ := List.pairwise_cons.1 h
    unfold insertEntry
    split
    · rename_i hlt
      refine List.pairwise_cons.2 ⟨fun b hb => ?_, h⟩
      rcases List.mem_cons.1 hb with rfl | hb
      · exact hlt
      · exact String.lt_trans hlt (hhead b hb)
    · rename_i hge
      split
      · rename_i heq
        subst heq
        exact List.pairwise_cons.2 ⟨hhead, hrest⟩
      · rename_i hne
        refine List.pairwise_cons.2 ⟨fun b hb => ?_, ih hrest⟩
        rcases eq_or_mem_of_mem_insertEntry hb with rfl | hb
        · refine Decidable.byContradiction fun hnot => hne ?_
          exact String.le_antisymm (String.not_lt.1 hnot) (String.not_lt.1 hge)
        · exact hhead b hb

/-- The map with `value` under `name`. -/
def insert (map : NameMap α) (name : String) (value : α) : NameMap α :=
  ⟨insertEntry name value map.entries, sorted_insertEntry name value map.sorted⟩

/-- The map without the name. -/
def erase (map : NameMap α) (name : String) : NameMap α :=
  ⟨map.entries.filter fun entry => entry.1 != name, map.sorted.filter _⟩

/-- The map with all the entries of `other`, which win over its own. -/
def update (map other : NameMap α) : NameMap α :=
  other.entries.foldl (fun map entry => map.insert entry.1 entry.2) map

/-- The map of a list of entries; of two for one name the later stays. -/
def ofList (entries : List (String × α)) : NameMap α :=
  entries.foldl (fun map entry => map.insert entry.1 entry.2) empty

/-! ### Look-ups -/

theorem lookup_cons_eq (name : String) (head : String × α) (rest : List (String × α)) :
    (head :: rest).lookup name = if name = head.1 then some head.2 else rest.lookup name := by
  obtain ⟨other, x⟩ := head
  rw [List.lookup_cons]
  by_cases h : name = other
  · simp [h]
  · have hb : (name == other) = false := by simpa using h
    simp [h, hb]

@[simp]
theorem find?_empty (name : String) : (empty : NameMap α).find? name = none := rfl

theorem lookup_insertEntry (name other : String) (value : α) (entries : List (String × α)) :
    (insertEntry name value entries).lookup other =
      if other = name then some value else entries.lookup other := by
  induction entries with
  | nil => simp [insertEntry, lookup_cons_eq]
  | cons head rest ih =>
    unfold insertEntry
    split
    · rw [lookup_cons_eq]
    · split
      · rename_i heq
        rw [lookup_cons_eq, lookup_cons_eq]
        split <;> simp_all
      · rename_i hne
        rw [lookup_cons_eq, lookup_cons_eq, ih]
        by_cases h : other = name
        · simp [h, hne]
        · simp [h]

/-- An insertion changes the look-up of its own name only. -/
theorem find?_insert (map : NameMap α) (name other : String) (value : α) :
    (map.insert name value).find? other = if other = name then some value else map.find? other :=
  lookup_insertEntry name other value map.entries

@[simp]
theorem find?_insert_self (map : NameMap α) (name : String) (value : α) :
    (map.insert name value).find? name = some value := by
  simp [find?_insert]

theorem find?_insert_of_ne (map : NameMap α) {name other : String} (value : α) (h : other ≠ name) :
    (map.insert name value).find? other = map.find? other := by
  simp [find?_insert, h]

theorem lookup_filter (keep : String → Bool) (name : String) (entries : List (String × α)) :
    (entries.filter fun entry => keep entry.1).lookup name =
      if keep name then entries.lookup name else none := by
  induction entries with
  | nil => simp
  | cons head rest ih =>
    rw [List.filter_cons, lookup_cons_eq]
    by_cases hhead : keep head.1 = true
    · rw [if_pos hhead, lookup_cons_eq, ih]
      by_cases hname : name = head.1
      · simp [hname, hhead]
      · simp [hname]
    · rw [if_neg hhead, ih]
      by_cases hname : name = head.1
      · simp [hname, hhead]
      · simp [hname]

/-- A removal changes the look-up of its own name only. -/
theorem find?_erase_of_ne (map : NameMap α) {name other : String} (h : other ≠ name) :
    (map.erase name).find? other = map.find? other := by
  have hkept : (other != name) = true := by simpa using h
  rw [find?, erase, lookup_filter (· != name), if_pos hkept, find?]

theorem find?_foldl_insert_of_notMem {name : String} {entries : List (String × α)}
    (h : name ∉ entries.map (·.1)) (map : NameMap α) :
    (entries.foldl (fun map entry => map.insert entry.1 entry.2) map).find? name =
      map.find? name := by
  induction entries generalizing map with
  | nil => rfl
  | cons entry rest ih =>
    rw [List.map_cons, List.mem_cons, not_or] at h
    rw [List.foldl_cons, ih h.2, find?_insert_of_ne _ _ h.1]

theorem find?_foldl_insert_of_mem {name : String} {value : α} {entries : List (String × α)}
    (hnodup : (entries.map (·.1)).Nodup) (h : (name, value) ∈ entries) (map : NameMap α) :
    (entries.foldl (fun map entry => map.insert entry.1 entry.2) map).find? name = some value := by
  induction entries generalizing map with
  | nil => cases h
  | cons entry rest ih =>
    rw [List.map_cons, List.nodup_cons] at hnodup
    rw [List.foldl_cons]
    rcases List.mem_cons.1 h with rfl | h
    · rw [find?_foldl_insert_of_notMem hnodup.1, find?_insert_self]
    · exact ih hnodup.2 h _

/-- Of entries for different names, all stay. -/
theorem find?_ofList_of_mem {name : String} {value : α} {entries : List (String × α)}
    (hnodup : (entries.map (·.1)).Nodup) (h : (name, value) ∈ entries) :
    (ofList entries).find? name = some value :=
  find?_foldl_insert_of_mem hnodup h empty

/-- Of entries for one name, the last one stays. -/
theorem find?_ofList (entries : List (String × α)) (name : String) :
    (ofList entries).find? name = entries.reverse.lookup name := by
  suffices h : ∀ map : NameMap α,
      (entries.foldl (fun map entry => map.insert entry.1 entry.2) map).find? name =
        (entries.reverse.lookup name).or (map.find? name) by
    rw [ofList, h empty, find?_empty, Option.or_none]
  induction entries with
  | nil => exact fun map => rfl
  | cons entry rest ih =>
    intro map
    rw [List.foldl_cons, ih, find?_insert, List.reverse_cons, List.lookup_append, lookup_cons_eq]
    cases rest.reverse.lookup name with
    | some value => rfl
    | none => split <;> rfl

/-- **An update is a union in which the other map wins.** -/
theorem find?_update (map other : NameMap α) (name : String) :
    (map.update other).find? name = (other.find? name).or (map.find? name) := by
  cases h : other.find? name with
  | none =>
    refine find?_foldl_insert_of_notMem (fun hmem => ?_) map
    obtain ⟨entry, hentry, rfl⟩ := List.mem_map.1 hmem
    simpa using List.lookup_eq_none_iff.1 h entry hentry
  | some value =>
    obtain ⟨before, behind, hentries, -⟩ := List.lookup_eq_some_iff.1 h
    refine find?_foldl_insert_of_mem ?_ (hentries ▸ by simp) map
    refine List.pairwise_map.2 (other.sorted.imp fun {a b} hlt heq => ?_)
    rw [heq] at hlt
    exact String.lt_irrefl b.1 hlt

theorem lookup_eq_none_of_forall_lt {name : String} {entries : List (String × α)}
    (h : ∀ entry ∈ entries, name < entry.1) : entries.lookup name = none := by
  induction entries with
  | nil => rfl
  | cons head rest ih =>
    have hne : name ≠ head.1 := fun heq =>
      String.lt_irrefl name (by simpa [← heq] using h head List.mem_cons_self)
    rw [lookup_cons_eq, if_neg hne]
    exact ih fun entry he => h entry (List.mem_cons_of_mem _ he)

theorem not_head_lt_head {x y : String × α} {a b : List (String × α)}
    (hx : (x :: a).Pairwise fun x y => x.1 < y.1)
    (h : ∀ name, (x :: a).lookup name = (y :: b).lookup name) : ¬ y.1 < x.1 := by
  intro hlt
  have hnone : (x :: a).lookup y.1 = none :=
    lookup_eq_none_of_forall_lt fun entry he => by
      rcases List.mem_cons.1 he with rfl | he
      · exact hlt
      · exact String.lt_trans hlt ((List.pairwise_cons.1 hx).1 entry he)
  have := h y.1
  rw [hnone, lookup_cons_eq, if_pos rfl] at this
  simp at this

theorem entries_eq_of_lookup_eq {a b : List (String × α)}
    (ha : a.Pairwise fun x y => x.1 < y.1) (hb : b.Pairwise fun x y => x.1 < y.1)
    (h : ∀ name, a.lookup name = b.lookup name) : a = b := by
  induction a generalizing b with
  | nil =>
    cases b with
    | nil => rfl
    | cons y b =>
      have := h y.1
      rw [lookup_cons_eq, if_pos rfl] at this
      simp at this
  | cons x a ih =>
    cases b with
    | nil =>
      have := h x.1
      rw [lookup_cons_eq, if_pos rfl] at this
      simp at this
    | cons y b =>
      have hname : x.1 = y.1 := String.le_antisymm (String.not_lt.1 (not_head_lt_head ha h))
        (String.not_lt.1 (not_head_lt_head hb fun name => (h name).symm))
      have hvalue : x.2 = y.2 := by
        have := h x.1
        rw [lookup_cons_eq, lookup_cons_eq, if_pos rfl, if_pos hname] at this
        simpa using this
      obtain ⟨hx, ha⟩ := List.pairwise_cons.1 ha
      obtain ⟨hy, hb⟩ := List.pairwise_cons.1 hb
      have hrest : a = b := ih ha hb fun name => by
        by_cases hn : name = x.1
        · have hn' : name = y.1 := hn.trans hname
          rw [lookup_eq_none_of_forall_lt fun entry he => hn ▸ hx entry he,
            lookup_eq_none_of_forall_lt fun entry he => hn' ▸ hy entry he]
        · have := h name
          rwa [lookup_cons_eq, lookup_cons_eq, if_neg hn, if_neg (hname ▸ hn)] at this
      rw [Prod.ext hname hvalue, hrest]

/-- Maps with the same look-ups are equal. -/
@[ext]
theorem ext {a b : NameMap α} (h : ∀ name, a.find? name = b.find? name) : a = b := by
  have := entries_eq_of_lookup_eq a.sorted b.sorted h
  cases a
  cases b
  simpa using this

@[simp]
theorem empty_update (map : NameMap α) : empty.update map = map := by
  ext1 name
  rw [find?_update, find?_empty, Option.or_none]

end NameMap

end MessageFormat
