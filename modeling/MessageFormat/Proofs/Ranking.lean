import Mathlib.Data.List.Forall2
import Mathlib.Data.List.Lex
import Mathlib.Data.List.Nodup
import MessageFormat.Proofs.Selection

/-!
# Ranks of variants

The best variant is an eligible one of least rank.  The rank of a variant tells the texts of its
keys, so that in a matcher without two variants of the same keys no two variants have the same rank:
it does not matter which of them comes first.

* `Variant.rank?_eq_some_iff` : a rank is made of the places of the keys;
* `Variant.keyTexts_eq_of_rank?` : variants of the same rank have the same keys;
* `bind_bestVariant_eq_some_iff` : what the best variant is, without regard to positions;
* `bestVariantWith_eq` : the place of keys that match always may be any behind all others;
* `Variant.lt_rank?_soleMatches` : a variant is better than any other where its own keys, and nothing
  else, are matched.
-/

namespace MessageFormat

/-! ### Ranks -/

/-- What the keys of the variant are compared by. -/
def Variant.keyTexts (v : Variant) : List (Option String) := v.keys.map VariantKey.text?

/-- Every key has a place in its column. -/
inductive Placed : List (Option (List String)) → List VariantKey → List Nat → Prop where
  /-- No keys. -/
  | nil : Placed [] [] []
  /-- A key, and then further ones. -/
  | cons {column : Option (List String)} {columns : List (Option (List String))} {key : VariantKey}
      {keys : List VariantKey} {place : Nat} {places : List Nat}
      (h : key.place? column = some place) (later : Placed columns keys places) :
      Placed (column :: columns) (key :: keys) (place :: places)

theorem placed_iff {matched : List (Option (List String))} {keys : List VariantKey}
    {places : List Nat} : Placed matched keys places ↔
      keys.length = matched.length ∧
        (matched.zipWith VariantKey.place? keys).mapM id = some places := by
  constructor
  · intro h
    induction h with
    | nil => exact ⟨rfl, rfl⟩
    | cons h _ ih => exact ⟨congrArg (· + 1) ih.1, by simp [h, ih.2]⟩
  · rintro ⟨hlength, hplaces⟩
    induction matched generalizing keys places with
    | nil =>
      obtain rfl := List.length_eq_zero_iff.1 hlength
      obtain rfl : [] = places := Option.some.inj hplaces
      exact .nil
    | cons column matched ih =>
      cases keys with
      | nil => cases hlength
      | cons key keys =>
        simp only [List.zipWith_cons_cons, List.mapM_cons, Option.bind_eq_bind, id,
          Option.bind_eq_some_iff] at hplaces
        obtain ⟨place, hplace, places, hlater, hpure⟩ := hplaces
        cases hpure
        exact .cons hplace (ih (Nat.succ.inj hlength) hlater)

/-- The rank of an eligible variant: the count of its catch-all keys, and the places of its keys. -/
theorem Variant.rank?_eq_some_iff {v : Variant} {matched : List (Option (List String))}
    {rank : List Nat} : v.rank? matched = some rank ↔
      ∃ places, Placed matched v.keys places ∧ v.catchAllCount :: places = rank := by
  simp only [rank?, placed_iff, Option.ite_none_right_eq_some, Option.map_eq_some_iff, and_assoc,
    exists_and_left]

/-! ### Ranks tell keys apart -/

/-- In a column, the place of a key tells its text. -/
theorem VariantKey.text?_eq_of_place? {key key' : VariantKey} {column : Option (List String)}
    {place : Nat} (h : key.place? column = some place) (h' : key'.place? column = some place) :
    key.text? = key'.text? := by
  cases column with
  | none =>
    -- only keys that match always have a place here
    cases key with
    | literal => cases h
    | catchAll =>
      cases key' with
      | literal => cases h'
      | catchAll => rfl
  | some matched =>
    have hliteral {l : Literal} (h : matched.idxOf? l.value = some place) :
        matched[place]? = some l.value := by
      obtain ⟨hlt, heq, -⟩ := List.idxOf?_eq_some_iff.1 h
      rw [List.getElem?_eq_getElem hlt, heq]
    have hcatchAll (h : some matched.length = some place) : matched[place]? = none :=
      List.getElem?_eq_none (Nat.le_of_eq (Option.some.inj h))
    cases key with
    | literal l =>
      cases key' with
      | literal l' => exact (hliteral h).symm.trans (hliteral h')
      | catchAll => exact (hliteral h).symm.trans (hcatchAll h')
    | catchAll =>
      cases key' with
      | literal l' => exact (hcatchAll h).symm.trans (hliteral h')
      | catchAll => rfl

theorem Placed.texts_eq {matched : List (Option (List String))} {keys keys' : List VariantKey}
    {places : List Nat} (h : Placed matched keys places) (h' : Placed matched keys' places) :
    keys.map VariantKey.text? = keys'.map VariantKey.text? := by
  induction h generalizing keys' with
  | nil =>
    cases h'
    rfl
  | cons h _ ih =>
    cases h' with
    | cons h' later => rw [List.map_cons, List.map_cons, VariantKey.text?_eq_of_place? h h', ih later]

/-- Variants of the same rank have the same keys. -/
theorem Variant.keyTexts_eq_of_rank? {v w : Variant} {matched : List (Option (List String))}
    {rank : List Nat} (hv : v.rank? matched = some rank) (hw : w.rank? matched = some rank) :
    v.keyTexts = w.keyTexts := by
  obtain ⟨places, hplaced, hrank⟩ := rank?_eq_some_iff.1 hv
  obtain ⟨places', hplaced', rfl⟩ := rank?_eq_some_iff.1 hw
  obtain rfl := (List.cons.inj hrank).2
  exact hplaced.texts_eq hplaced'

section Distinct

variable {variants : List Variant} {matched : List (Option (List String))}
  (hdistinct : (variants.map Variant.keyTexts).Nodup)
include hdistinct

theorem position_eq_of_keyTexts {i j : Nat} {v w : Variant} (hv : variants[i]? = some v)
    (hw : variants[j]? = some w) (h : v.keyTexts = w.keyTexts) : i = j := by
  have hlt : i < (variants.map Variant.keyTexts).length := by
    rw [List.length_map]
    exact (List.getElem?_eq_some_iff.1 hv).1
  refine (List.getElem?_inj hlt hdistinct).1 ?_
  rw [List.getElem?_map, List.getElem?_map, hv, hw, Option.map_some, Option.map_some, h]

/-- No two variants have the same rank, so that their order never decides between them. -/
theorem position_eq_of_rank? {i j : Nat} {v w : Variant} {rank : List Nat}
    (hv : variants[i]? = some v) (hw : variants[j]? = some w) (hrank : v.rank? matched = some rank)
    (hrank' : w.rank? matched = some rank) : i = j :=
  position_eq_of_keyTexts hdistinct hv hw (Variant.keyTexts_eq_of_rank? hrank hrank')

end Distinct

/-! ### The best variant -/

theorem not_lt_of_firstLeast? {α : Type} {items : List (List Nat × α)} {item : List Nat × α}
    (h : firstLeast? items = some item) : ∀ other ∈ items, ¬ other.1 < item.1 := by
  induction items generalizing item with
  | nil => nofun
  | cons first rest ih =>
    unfold firstLeast? at h
    split at h
    · rename_i hnone
      cases h
      rw [firstLeast?_eq_none_iff.1 hnone, List.forall_mem_singleton]
      exact lt_irrefl _
    · rename_i least hleast
      rw [List.forall_mem_cons]
      split at h
      · rename_i hlt
        cases h
        exact ⟨lt_asymm hlt, ih hleast⟩
      · rename_i hge
        cases h
        exact ⟨lt_irrefl _, fun other hother hlt =>
          ih hleast other hother (lt_of_lt_of_le hlt (not_lt.1 hge))⟩

/-- The variant is eligible, and no other has a lesser rank. -/
def IsBest (variants : List Variant) (matched : List (Option (List String))) (v : Variant) : Prop :=
  v ∈ variants ∧ ∃ rank, v.rank? matched = some rank ∧
    ∀ w ∈ variants, ∀ other, w.rank? matched = some other → ¬ other < rank

/-- The position of the best variant is that of a best one. -/
theorem exists_isBest_of_bestVariant {variants : List Variant}
    {matched : List (Option (List String))} {position : Nat}
    (h : bestVariant variants matched = some position) :
    ∃ v, variants[position]? = some v ∧ IsBest variants matched v := by
  obtain ⟨⟨rank, _⟩, hleast, rfl⟩ := Option.map_eq_some_iff.1 h
  obtain ⟨⟨v, place⟩, hmem, hpair⟩ := List.mem_filterMap.1 (mem_of_firstLeast? hleast)
  obtain ⟨_, hrank, hpair⟩ := Option.map_eq_some_iff.1 hpair
  cases hpair
  have hv := List.mem_zipIdx_iff_getElem?.1 hmem
  refine ⟨v, hv, List.mem_of_getElem? hv, rank, hrank, fun w hw other hother => ?_⟩
  obtain ⟨i, hi⟩ := List.mem_iff_getElem?.1 hw
  exact not_lt_of_firstLeast? hleast (other, i) (List.mem_filterMap.2
    ⟨(w, i), List.mem_zipIdx_iff_getElem?.2 hi, Option.map_eq_some_iff.2 ⟨other, hother, rfl⟩⟩)

/-- If there is an eligible variant, there is a best one. -/
theorem exists_bestVariant_of_rank? {variants : List Variant}
    {matched : List (Option (List String))} {v : Variant} {rank : List Nat} (hv : v ∈ variants)
    (hrank : v.rank? matched = some rank) :
    ∃ position, bestVariant variants matched = some position := by
  refine Option.ne_none_iff_exists'.1 fun hnone => ?_
  rw [bestVariant_eq_none_iff.1 hnone v hv] at hrank
  cases hrank

/-- The best variant, where no two variants have the same keys. -/
theorem bind_bestVariant_eq_some_iff {variants : List Variant}
    {matched : List (Option (List String))} {v : Variant}
    (hdistinct : (variants.map Variant.keyTexts).Nodup) :
    (bestVariant variants matched).bind (variants[·]?) = some v ↔ IsBest variants matched v := by
  rw [Option.bind_eq_some_iff]
  constructor
  · rintro ⟨position, hbest, hv⟩
    obtain ⟨w, hw, h⟩ := exists_isBest_of_bestVariant hbest
    obtain rfl := Option.some.inj (hw.symm.trans hv)
    exact h
  · rintro ⟨hv, rank, hrank, hleast⟩
    obtain ⟨position, hbest⟩ := exists_bestVariant_of_rank? hv hrank
    obtain ⟨w, hw, hmem, rank', hrank', hleast'⟩ := exists_isBest_of_bestVariant hbest
    -- neither of the two has a lesser rank than the other
    have hsame : rank = rank' := le_antisymm (not_lt.1 (hleast w hmem rank' hrank'))
      (not_lt.1 (hleast' v hv rank hrank))
    have heq : v = w := List.inj_on_of_nodup_map hdistinct hv hmem
      (Variant.keyTexts_eq_of_rank? hrank (hsame ▸ hrank'))
    exact ⟨position, hbest, heq ▸ hw⟩

/-- The best variant is the same in any order of the variants. -/
theorem bind_bestVariant_perm {variants variants' : List Variant}
    (hdistinct : (variants.map Variant.keyTexts).Nodup) (hperm : variants.Perm variants')
    (matched : List (Option (List String))) :
    (bestVariant variants' matched).bind (variants'[·]?) =
      (bestVariant variants matched).bind (variants[·]?) := by
  ext v
  rw [bind_bestVariant_eq_some_iff hdistinct,
    bind_bestVariant_eq_some_iff ((hperm.map _).nodup_iff.1 hdistinct)]
  simp only [IsBest, hperm.mem_iff]

/-! ### A place behind all others

A key that matches always comes behind all texts that its selector has matched.  Its place is their
number, but it may as well be the same one in all columns, such as the greatest number of a machine
word, if that is no less. -/

/-- The place of a key, where `last` is the place of those that match always. -/
def VariantKey.placeWith? (last : Nat) (matched : Option (List String)) : VariantKey → Option Nat
  | .literal l => matched.bind (·.idxOf? l.value)
  | .catchAll => some last

/-- The rank of a variant by these places, if it is eligible. -/
def Variant.rankWith? (last : Nat) (v : Variant) (matched : List (Option (List String))) :
    Option (List Nat) :=
  if v.keys.length = matched.length then
    ((matched.zipWith (VariantKey.placeWith? last) v.keys).mapM id).map (v.catchAllCount :: ·)
  else none

/-- The position of the best variant by these ranks, if any is eligible. -/
def bestVariantWith (last : Nat) (variants : List Variant) (matched : List (Option (List String))) :
    Option Nat :=
  (firstLeast? (variants.zipIdx.filterMap fun item =>
    (item.1.rankWith? last matched).map fun rank => (rank, item.2))).map (·.2)

/-- How many texts are matched in a column. -/
def matchedCount (column : Option (List String)) : Nat := column.elim 0 List.length

/-- Moves the place behind the texts of a column to `last`. -/
def moveLast (last : Nat) (column : Option (List String)) (place : Nat) : Nat :=
  if place < matchedCount column then place else last

/-- Moves the places in a rank. -/
def moveRank (last : Nat) (matched : List (Option (List String))) : List Nat → List Nat
  | [] => []
  | count :: places => count :: matched.zipWith (moveLast last) places

section Moving

variable {last : Nat} {column : Option (List String)} {matched : List (Option (List String))}

theorem VariantKey.place_le {key : VariantKey} {place : Nat} (h : key.place? column = some place) :
    place ≤ matchedCount column := by
  cases key with
  | catchAll => exact Nat.le_of_eq (Option.some.inj h).symm
  | literal l =>
    obtain ⟨texts, rfl, hplace⟩ := Option.bind_eq_some_iff.1 h
    exact (List.idxOf?_eq_some_iff.1 hplace).1.le

theorem VariantKey.placeWith?_eq (key : VariantKey) :
    key.placeWith? last column = (key.place? column).map (moveLast last column) := by
  cases key with
  | catchAll => simp [placeWith?, place?, moveLast, matchedCount]
  | literal l =>
    cases h : (literal l).place? column with
    | none => exact h
    | some place =>
      obtain ⟨texts, rfl, hplace⟩ := Option.bind_eq_some_iff.1 h
      have hlt : place < matchedCount (some texts) := (List.idxOf?_eq_some_iff.1 hplace).1
      rw [Option.map_some, moveLast, if_pos hlt]
      exact hplace

theorem mapM_placeWith? (keys : List VariantKey) :
    (matched.zipWith (VariantKey.placeWith? last) keys).mapM id =
      ((matched.zipWith VariantKey.place? keys).mapM id).map (matched.zipWith (moveLast last)) := by
  induction matched generalizing keys with
  | nil => rfl
  | cons column matched ih =>
    cases keys with
    | nil => rfl
    | cons key keys =>
      simp only [List.zipWith_cons_cons, List.mapM_cons, id, ih, key.placeWith?_eq]
      cases key.place? column with
      | none => rfl
      | some place => cases (matched.zipWith VariantKey.place? keys).mapM id <;> rfl

theorem Variant.rankWith?_eq (v : Variant) :
    v.rankWith? last matched = (v.rank? matched).map (moveRank last matched) := by
  unfold rankWith? rank?
  split
  · rw [mapM_placeWith?, Option.map_map, Option.map_map]
    rfl
  · rfl

/-- Places are moved in order. -/
theorem moveLast_lt_iff (hlast : matchedCount column ≤ last) {a b : Nat}
    (ha : a ≤ matchedCount column) (hb : b ≤ matchedCount column) :
    (moveLast last column a < moveLast last column b ↔ a < b) ∧
      (moveLast last column a = moveLast last column b ↔ a = b) := by
  unfold moveLast
  split <;> split <;> omega

theorem Placed.moveLast_lt_iff {keys keys' : List VariantKey} {places places' : List Nat}
    (h : Placed matched keys places) (h' : Placed matched keys' places')
    (hlast : ∀ column ∈ matched, matchedCount column ≤ last) :
    matched.zipWith (moveLast last) places < matched.zipWith (moveLast last) places' ↔
      places < places' := by
  induction h generalizing keys' places' with
  | nil =>
    cases h'
    rfl
  | cons h _ ih =>
    cases h' with
    | cons h' later =>
      obtain ⟨hfirst, hlast⟩ := List.forall_mem_cons.1 hlast
      obtain ⟨hlt, heq⟩ := MessageFormat.moveLast_lt_iff hfirst (VariantKey.place_le h)
        (VariantKey.place_le h')
      rw [List.zipWith_cons_cons, List.zipWith_cons_cons, List.cons_lt_cons_iff,
        List.cons_lt_cons_iff, hlt, heq, ih later hlast]

/-- Ranks are moved in order. -/
theorem moveRank_lt_iff {v w : Variant} {rank other : List Nat}
    (hlast : ∀ column ∈ matched, matchedCount column ≤ last) (hv : v.rank? matched = some rank)
    (hw : w.rank? matched = some other) :
    moveRank last matched rank < moveRank last matched other ↔ rank < other := by
  obtain ⟨places, hplaced, rfl⟩ := Variant.rank?_eq_some_iff.1 hv
  obtain ⟨places', hplaced', rfl⟩ := Variant.rank?_eq_some_iff.1 hw
  rw [moveRank, moveRank, List.cons_lt_cons_iff, List.cons_lt_cons_iff,
    hplaced.moveLast_lt_iff hplaced' hlast]

end Moving

/-- The first of the items of least rank stays the first if ranks are moved in order. -/
theorem firstLeast?_map {α : Type} {f : List Nat → List Nat} {items : List (List Nat × α)}
    (h : ∀ a ∈ items, ∀ b ∈ items, f a.1 < f b.1 ↔ a.1 < b.1) :
    firstLeast? (items.map fun item => (f item.1, item.2)) =
      (firstLeast? items).map fun item => (f item.1, item.2) := by
  induction items with
  | nil => rfl
  | cons first rest ih =>
    have hrest := ih fun a ha b hb => h a (.tail _ ha) b (.tail _ hb)
    rw [List.map_cons, firstLeast?, firstLeast?, hrest]
    cases hleast : firstLeast? rest with
    | none => rfl
    | some least =>
      have horder := h least (.tail _ (mem_of_firstLeast? hleast)) first (.head _)
      by_cases hlt : least.1 < first.1
      · simp [hlt, horder.2 hlt]
      · simp [hlt, mt horder.1 hlt]

/-- **Any place behind all others will do** for the keys that match always. -/
theorem bestVariantWith_eq {last : Nat} {matched : List (Option (List String))}
    (hlast : ∀ texts, some texts ∈ matched → texts.length ≤ last) (variants : List Variant) :
    bestVariantWith last variants matched = bestVariant variants matched := by
  have hcount : ∀ column ∈ matched, matchedCount column ≤ last := by
    intro column hcolumn
    cases column with
    | none => exact Nat.zero_le _
    | some texts => exact hlast texts hcolumn
  let ranked := variants.zipIdx.filterMap fun item =>
    (item.1.rank? matched).map fun rank => (rank, item.2)
  have hmoved : (variants.zipIdx.filterMap fun item =>
      (item.1.rankWith? last matched).map fun rank => (rank, item.2)) =
        ranked.map fun item => (moveRank last matched item.1, item.2) := by
    rw [List.map_filterMap]
    refine List.filterMap_congr fun item _ => ?_
    rw [Variant.rankWith?_eq, Option.map_map, Option.map_map]
    rfl
  have hranked : ∀ item ∈ ranked, ∃ v : Variant, v.rank? matched = some item.1 := by
    intro item hitem
    obtain ⟨⟨v, position⟩, -, hmap⟩ := List.mem_filterMap.1 hitem
    obtain ⟨rank, hrank, rfl⟩ := Option.map_eq_some_iff.1 hmap
    exact ⟨v, hrank⟩
  have horder : ∀ a ∈ ranked, ∀ b ∈ ranked,
      moveRank last matched a.1 < moveRank last matched b.1 ↔ a.1 < b.1 := by
    intro a ha b hb
    obtain ⟨v, hv⟩ := hranked a ha
    obtain ⟨w, hw⟩ := hranked b hb
    exact moveRank_lt_iff hcount hv hw
  rw [bestVariantWith, hmoved, firstLeast?_map horder, Option.map_map]
  rfl

/-! ### Sole matches -/

/-- What is matched where each literal key of the variant is the only key that is matched in its
column. -/
def Variant.soleMatches (v : Variant) : List (Option (List String)) :=
  v.keys.map fun key => some key.text?.toList

theorem Variant.exists_rank?_soleMatches (v : Variant) :
    ∃ rank, v.rank? v.soleMatches = some rank := by
  have hplaced : ∀ keys : List VariantKey,
      Placed (keys.map fun key => some key.text?.toList) keys (keys.map fun _ => 0) := by
    intro keys
    induction keys with
    | nil => exact .nil
    | cons key keys ih =>
      refine .cons ?_ ih
      cases key with
      | literal l => simp [VariantKey.place?, VariantKey.text?, List.idxOf?_cons]
      | catchAll => rfl
  exact ⟨_, rank?_eq_some_iff.2 ⟨_, hplaced v.keys, rfl⟩⟩

/-- A key that has a place where another is the only one matched matches always, or is compared by
the same text. -/
theorem VariantKey.text?_eq_none_or_eq {key other : VariantKey} {place : Nat}
    (h : other.place? (some key.text?.toList) = some place) :
    other.text? = none ∨ other.text? = key.text? := by
  cases other with
  | catchAll => exact .inl rfl
  | literal l =>
    obtain ⟨hlt, heq, -⟩ := List.idxOf?_eq_some_iff.1 h
    have hmem : l.value ∈ key.text? := Option.mem_toList.1 (heq ▸ List.getElem_mem hlt)
    exact .inr hmem.symm

theorem Variant.catchAllCount_eq (v : Variant) : v.catchAllCount = v.keyTexts.count none := by
  rw [catchAllCount, keyTexts, List.count, List.countP_map]
  refine List.countP_congr fun key _ => ?_
  cases key with
  | literal l => exact iff_of_false nofun nofun
  | catchAll => exact iff_of_true rfl rfl

theorem Placed.forall₂_texts {keys others : List VariantKey} {places : List Nat}
    (h : Placed (keys.map fun key => some key.text?.toList) others places) :
    List.Forall₂ (fun text text' => text = none ∨ text = text') (others.map VariantKey.text?)
      (keys.map VariantKey.text?) := by
  induction keys generalizing others places with
  | nil =>
    cases h
    exact .nil
  | cons key keys ih =>
    cases h with
    | cons h later => exact .cons (VariantKey.text?_eq_none_or_eq h) (ih later)

theorem count_none_lt_or_eq {texts texts' : List (Option String)}
    (h : List.Forall₂ (fun text text' => text = none ∨ text = text') texts texts') :
    texts'.count none < texts.count none ∨ texts = texts' := by
  induction h with
  | nil => exact .inr rfl
  | @cons text text' texts texts' h _ ih =>
    rw [List.count_cons, List.count_cons]
    by_cases heq : text = text'
    · subst heq
      refine ih.imp (fun hlt => Nat.add_lt_add_right hlt _) fun heq => by rw [heq]
    · -- here the one key matches always and the other does not
      obtain rfl := h.resolve_right heq
      have hle : texts'.count none ≤ texts.count none := by
        rcases ih with hlt | rfl
        · exact hlt.le
        · exact le_rfl
      have hliteral : (text' == none) = false := beq_false_of_ne (Ne.symm heq)
      simp only [hliteral, beq_self_eq_true, Bool.false_eq_true, if_true, if_false]
      exact .inl (by omega)

/-- Where its own keys and nothing else are matched, a variant is better than any other. -/
theorem Variant.lt_rank?_soleMatches {v w : Variant} {rank other : List Nat}
    (hne : w.keyTexts ≠ v.keyTexts) (hv : v.rank? v.soleMatches = some rank)
    (hw : w.rank? v.soleMatches = some other) : rank < other := by
  obtain ⟨places, -, rfl⟩ := rank?_eq_some_iff.1 hv
  obtain ⟨places', hplaced, rfl⟩ := rank?_eq_some_iff.1 hw
  have hlt := (count_none_lt_or_eq hplaced.forall₂_texts).resolve_right hne
  exact List.cons_lt_cons_iff.2 (.inl (by rwa [catchAllCount_eq, catchAllCount_eq]))

/-- Where its own keys and nothing else are matched, a variant is the best. -/
theorem bestVariant_soleMatches {variants : List Variant}
    (hdistinct : (variants.map Variant.keyTexts).Nodup) {i : Nat} {v : Variant}
    (hv : variants[i]? = some v) : bestVariant variants v.soleMatches = some i := by
  obtain ⟨rank, hrank⟩ := v.exists_rank?_soleMatches
  have hmem := List.mem_of_getElem? hv
  obtain ⟨position, hbest⟩ := exists_bestVariant_of_rank? hmem hrank
  obtain ⟨w, hw, -, other, hother, hleast⟩ := exists_isBest_of_bestVariant hbest
  have hsame : w.keyTexts = v.keyTexts := by
    by_contra hne
    exact hleast v hmem rank hrank (Variant.lt_rank?_soleMatches hne hrank hother)
  rw [hbest, position_eq_of_keyTexts hdistinct hw hv hsame]

end MessageFormat
