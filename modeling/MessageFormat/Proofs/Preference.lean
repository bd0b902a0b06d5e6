import MessageFormat.Proofs.Variants

/-!
# Which variant is preferred

The order among eligible variants, said without ranks: fewer catch-all keys come first, then the
keys that their selectors prefer, column by column, and then what is written first.  A selector
prefers the texts that it has matched first, and any of them to a catch-all.

* `Variant.isEligible_iff`, `precedes_iff` : what ranks say about eligible variants;
* `bestVariant_by_preference` : the best variant is the eligible one that precedes all others;
* `bestVariant_onlyCandidates` : of the texts that selectors have matched, only the order of those
  that are keys matters.
-/

namespace MessageFormat

variable {variants : List Variant} {matched : List (Option (List String))}

/-! ### The order of variants -/

/-- The variant has one key for each selector, and its literal keys are matched. -/
structure Variant.IsEligible (v : Variant) (matched : List (Option (List String))) : Prop where
  /-- There are as many keys as selectors. -/
  length_eq : v.keys.length = matched.length
  /-- Each literal key is one that the selector of its column has matched. -/
  exists_mem : ∀ (column : Nat) (l : Literal), v.keys[column]? = some (.literal l) →
    ∃ texts, matched[column]? = some (some texts) ∧ l.value ∈ texts

/-- The texts that the selector of a column has matched; none, if it has failed. -/
def matchedTexts (matched : List (Option (List String))) (column : Nat) : List String :=
  matched[column]?.join.getD []

/-- By the texts that a selector has matched, a key is preferred to another: it is found earlier, or
the other one is a catch-all. -/
def VariantKey.IsPreferred (texts : List String) : VariantKey → VariantKey → Prop
  | .literal l, .literal l' => texts.idxOf l.value < texts.idxOf l'.value
  | .literal _, .catchAll => True
  | .catchAll, _ => False

/-- In the first column where the keys differ, the first key is preferred. -/
def PrefersKeys (matched : List (Option (List String))) (keys others : List VariantKey) : Prop :=
  ∃ column key other, keys[column]? = some key ∧ others[column]? = some other ∧
    (keys.map VariantKey.text?).take column = (others.map VariantKey.text?).take column ∧
    key.IsPreferred (matchedTexts matched column) other

/-- The variant `v` at position `i` comes before the variant `w` at position `j`: it has fewer
catch-all keys, or else its keys are preferred, or else it has the same keys and is written
first. -/
def Precedes (matched : List (Option (List String))) (v : Variant) (i : Nat) (w : Variant)
    (j : Nat) : Prop :=
  v.catchAllCount < w.catchAllCount ∨ v.catchAllCount = w.catchAllCount ∧
    (PrefersKeys matched v.keys w.keys ∨ v.keyTexts = w.keyTexts ∧ i < j)

/-! ### Places and preferences -/

/-- The place of a key is told by what it is compared by. -/
theorem VariantKey.place?_congr {key other : VariantKey} (h : key.text? = other.text?)
    (column : Option (List String)) : key.place? column = other.place? column := by
  cases key with
  | literal l =>
    cases other with
    | literal l' => rw [place?, place?, Option.some.inj h]
    | catchAll => cases h
  | catchAll =>
    cases other with
    | literal => cases h
    | catchAll => rfl

theorem VariantKey.place_lt_iff {key other : VariantKey} {column : Option (List String)}
    {place place' : Nat} (h : key.place? column = some place)
    (h' : other.place? column = some place') :
    place < place' ↔ key.IsPreferred (column.getD []) other := by
  cases column with
  | none =>
    -- only catch-all keys have a place here, and all the same one
    cases key with
    | literal => cases h
    | catchAll =>
      cases other with
      | literal => cases h'
      | catchAll =>
        cases h
        cases h'
        exact iff_of_false (Nat.lt_irrefl 0) id
  | some texts =>
    have hliteral {l : Literal} {place : Nat} (h : texts.idxOf? l.value = some place) :
        place = texts.idxOf l.value := by
      rw [List.idxOf_eq_getD_idxOf?, h, Option.getD_some]
    have hlt {l : Literal} {place : Nat} (h : texts.idxOf? l.value = some place) :
        place < texts.length := by
      obtain ⟨hlt, -⟩ := List.idxOf?_eq_some_iff.1 h
      exact hlt
    cases key with
    | literal l =>
      cases other with
      | literal l' => rw [hliteral h, hliteral h', IsPreferred, Option.getD_some]
      | catchAll =>
        cases h'
        exact iff_of_true (hlt h) trivial
    | catchAll =>
      cases h
      cases other with
      | literal l' => exact iff_of_false (Nat.lt_asymm (hlt h')) id
      | catchAll =>
        cases h'
        exact iff_of_false (Nat.lt_irrefl _) id

theorem prefersKeys_cons_iff {column : Option (List String)} {key other : VariantKey}
    {keys others : List VariantKey} :
    PrefersKeys (column :: matched) (key :: keys) (other :: others) ↔
      key.IsPreferred (column.getD []) other ∨
        key.text? = other.text? ∧ PrefersKeys matched keys others := by
  constructor
  · rintro ⟨_ | i, first, second, hfirst, hsecond, htexts, h⟩
    · cases hfirst
      cases hsecond
      exact .inl h
    · rw [List.map_cons, List.map_cons, List.take_succ_cons, List.take_succ_cons] at htexts
      obtain ⟨htext, htexts⟩ := List.cons.inj htexts
      exact .inr ⟨htext, i, first, second, hfirst, hsecond, htexts, h⟩
  · rintro (h | ⟨htext, i, first, second, hfirst, hsecond, htexts, h⟩)
    · exact ⟨0, key, other, rfl, rfl, rfl, h⟩
    · refine ⟨i + 1, first, second, hfirst, hsecond, ?_, h⟩
      rw [List.map_cons, List.map_cons, List.take_succ_cons, List.take_succ_cons, htext, htexts]

theorem Placed.lt_iff {keys others : List VariantKey} {places places' : List Nat}
    (h : Placed matched keys places) (h' : Placed matched others places') :
    places < places' ↔ PrefersKeys matched keys others := by
  induction h generalizing others places' with
  | nil =>
    cases h'
    refine iff_of_false (lt_irrefl _) ?_
    rintro ⟨_, _, _, h, -⟩
    cases h
  | cons hplace later ih =>
    cases h' with
    | cons hplace' later' =>
      rw [List.cons_lt_cons_iff, prefersKeys_cons_iff, VariantKey.place_lt_iff hplace hplace',
        ih later']
      refine or_congr_right (and_congr_left fun _ => ⟨?_, fun htext => ?_⟩)
      · rintro rfl
        exact VariantKey.text?_eq_of_place? hplace hplace'
      · rw [VariantKey.place?_congr htext, hplace'] at hplace
        exact (Option.some.inj hplace).symm

theorem Placed.eq_of_texts {keys others : List VariantKey} {places places' : List Nat}
    (h : Placed matched keys places) (h' : Placed matched others places')
    (htexts : keys.map VariantKey.text? = others.map VariantKey.text?) : places = places' := by
  induction h generalizing others places' with
  | nil =>
    cases h'
    rfl
  | cons hplace later ih =>
    cases h' with
    | cons hplace' later' =>
      obtain ⟨htext, htexts⟩ := List.cons.inj htexts
      rw [VariantKey.place?_congr htext, hplace'] at hplace
      rw [Option.some.inj hplace, ih later' htexts]

theorem exists_placed_iff {keys : List VariantKey} : (∃ places, Placed matched keys places) ↔
    keys.length = matched.length ∧ ∀ (column : Nat) (l : Literal),
      keys[column]? = some (.literal l) →
        ∃ texts, matched[column]? = some (some texts) ∧ l.value ∈ texts := by
  constructor
  · rintro ⟨places, h⟩
    induction h with
    | nil => exact ⟨rfl, nofun⟩
    | @cons texts _ key _ _ _ hplace _ ih =>
      refine ⟨congrArg (· + 1) ih.1, fun column l hl => ?_⟩
      cases column with
      | succ column => exact ih.2 column l hl
      | zero =>
        cases hl
        cases texts with
        | none => cases hplace
        | some texts =>
          obtain ⟨hlt, heq, -⟩ := List.idxOf?_eq_some_iff.1 hplace
          exact ⟨texts, rfl, heq ▸ List.getElem_mem hlt⟩
  · rintro ⟨hlength, hmem⟩
    induction keys generalizing matched with
    | nil =>
      obtain rfl := List.length_eq_zero_iff.1 hlength.symm
      exact ⟨[], .nil⟩
    | cons key keys ih =>
      cases matched with
      | nil => cases hlength
      | cons column matched =>
        obtain ⟨places, hplaces⟩ := ih (Nat.succ.inj hlength) fun i l hl => hmem (i + 1) l hl
        obtain ⟨place, hplace⟩ : ∃ place, key.place? column = some place := by
          cases key with
          | catchAll => exact ⟨_, rfl⟩
          | literal l =>
            obtain ⟨texts, htexts, hl⟩ := hmem 0 l rfl
            cases htexts
            exact Option.isSome_iff_exists.1 (List.isSome_idxOf?.2 hl)
        exact ⟨place :: places, .cons hplace hplaces⟩

/-! ### Ranks and the order -/

/-- A variant is eligible if it has a rank. -/
theorem Variant.isEligible_iff {v : Variant} :
    v.IsEligible matched ↔ ∃ rank, v.rank? matched = some rank := by
  constructor
  · intro h
    obtain ⟨places, hplaced⟩ := exists_placed_iff.2 ⟨h.length_eq, h.exists_mem⟩
    exact ⟨_, rank?_eq_some_iff.2 ⟨places, hplaced, rfl⟩⟩
  · rintro ⟨rank, hrank⟩
    obtain ⟨places, hplaced, -⟩ := rank?_eq_some_iff.1 hrank
    obtain ⟨hlength, hmem⟩ := exists_placed_iff.1 ⟨places, hplaced⟩
    exact ⟨hlength, hmem⟩

/-- A column whose selector has failed holds a catch-all in an eligible variant. -/
theorem Variant.IsEligible.eq_catchAll {v : Variant} (h : v.IsEligible matched) {column : Nat}
    {key : VariantKey} (hnone : matched[column]? = some none) (hkey : v.keys[column]? = some key) :
    key = .catchAll := by
  cases key with
  | catchAll => rfl
  | literal l =>
    obtain ⟨texts, htexts, -⟩ := h.exists_mem column l hkey
    rw [hnone] at htexts
    cases htexts

section Ranked

variable {v w : Variant} {rank other : List Nat} (hv : v.rank? matched = some rank)
  (hw : w.rank? matched = some other)
include hv hw

theorem Variant.rank_lt_iff : rank < other ↔ v.catchAllCount < w.catchAllCount ∨
    v.catchAllCount = w.catchAllCount ∧ PrefersKeys matched v.keys w.keys := by
  obtain ⟨places, hplaced, rfl⟩ := rank?_eq_some_iff.1 hv
  obtain ⟨places', hplaced', rfl⟩ := rank?_eq_some_iff.1 hw
  rw [List.cons_lt_cons_iff, hplaced.lt_iff hplaced']

theorem Variant.rank_eq_iff : rank = other ↔ v.keyTexts = w.keyTexts := by
  constructor
  · rintro rfl
    exact keyTexts_eq_of_rank? hv hw
  · intro htexts
    obtain ⟨places, hplaced, rfl⟩ := rank?_eq_some_iff.1 hv
    obtain ⟨places', hplaced', rfl⟩ := rank?_eq_some_iff.1 hw
    rw [catchAllCount_eq, catchAllCount_eq, htexts, hplaced.eq_of_texts hplaced' htexts]

/-- An eligible variant comes before another if its rank is less, or the same and it is written
first. -/
theorem precedes_iff {i j : Nat} :
    Precedes matched v i w j ↔ rank < other ∨ rank = other ∧ i < j := by
  rw [Variant.rank_lt_iff hv hw, Variant.rank_eq_iff hv hw, Precedes, and_or_left, or_assoc]
  refine or_congr_right (or_congr_right ⟨And.right, fun h => ⟨?_, h⟩⟩)
  rw [Variant.catchAllCount_eq, Variant.catchAllCount_eq, h.1]

end Ranked

/-! ### The best variant -/

/-- The items before the first of least rank have greater ranks. -/
theorem exists_split_of_firstLeast? {α : Type} {items : List (List Nat × α)} {item : List Nat × α}
    (h : firstLeast? items = some item) : ∃ before behind, items = before ++ item :: behind ∧
      ∀ other ∈ before, item.1 < other.1 := by
  induction items generalizing item with
  | nil => cases h
  | cons first rest ih =>
    unfold firstLeast? at h
    split at h
    · cases h
      exact ⟨[], rest, rfl, nofun⟩
    · rename_i least hleast
      split at h
      · rename_i hlt
        cases h
        obtain ⟨before, behind, rfl, hbefore⟩ := ih hleast
        exact ⟨first :: before, behind, rfl, List.forall_mem_cons.2 ⟨hlt, hbefore⟩⟩
      · cases h
        exact ⟨[], rest, rfl, nofun⟩

/-- The eligible variants by rank and position, in the order written. -/
def rankedPositions (variants : List Variant) (matched : List (Option (List String))) :
    List (List Nat × Nat) :=
  variants.zipIdx.filterMap fun (v, position) =>
    (v.rank? matched).map fun rank => (rank, position)

theorem mem_rankedPositions {rank : List Nat} {i : Nat} :
    (rank, i) ∈ rankedPositions variants matched ↔
      ∃ v, variants[i]? = some v ∧ v.rank? matched = some rank := by
  simp only [rankedPositions, List.mem_filterMap, Option.map_eq_some_iff, Prod.mk.injEq,
    Prod.exists, List.mem_zipIdx_iff_getElem?]
  constructor
  · rintro ⟨v, _, hv, _, hrank, rfl, rfl⟩
    exact ⟨v, hv, hrank⟩
  · rintro ⟨v, hv, hrank⟩
    exact ⟨v, i, hv, rank, hrank, rfl, rfl⟩

theorem pairwise_rankedPositions (variants : List Variant) (matched : List (Option (List String))) :
    (rankedPositions variants matched).Pairwise (·.2 < ·.2) := by
  have hpositions : variants.zipIdx.Pairwise (·.2 < ·.2) := by
    have h := List.pairwise_lt_range' (s := 0) (n := variants.length)
    rwa [← List.zipIdx_map_snd, List.pairwise_map] at h
  refine hpositions.filterMap _ fun a b hlt c hc d hd => ?_
  obtain ⟨_, _, rfl⟩ := Option.map_eq_some_iff.1 hc
  obtain ⟨_, _, rfl⟩ := Option.map_eq_some_iff.1 hd
  exact hlt

/-- The best variant comes before all other eligible ones. -/
theorem precedes_of_bestVariant {i : Nat} (h : bestVariant variants matched = some i) :
    ∃ v, variants[i]? = some v ∧ v.IsEligible matched ∧ ∀ j w, variants[j]? = some w →
      w.IsEligible matched → j ≠ i → Precedes matched v i w j := by
  obtain ⟨⟨rank, i⟩, hleast, rfl⟩ := Option.map_eq_some_iff.1 h
  have hleast : firstLeast? (rankedPositions variants matched) = some (rank, i) := hleast
  obtain ⟨v, hv, hrank⟩ := mem_rankedPositions.1 (mem_of_firstLeast? hleast)
  refine ⟨v, hv, Variant.isEligible_iff.2 ⟨rank, hrank⟩, fun j w hw heligible hne => ?_⟩
  obtain ⟨other, hother⟩ := Variant.isEligible_iff.1 heligible
  have hmem := mem_rankedPositions.2 ⟨w, hw, hother⟩
  have hge := not_lt_of_firstLeast? hleast _ hmem
  rw [precedes_iff hrank hother]
  obtain ⟨before, behind, hsplit, hbefore⟩ := exists_split_of_firstLeast? hleast
  rw [hsplit, List.mem_append, List.mem_cons] at hmem
  rcases hmem with hmem | heq | hmem
  · exact .inl (hbefore _ hmem)
  · exact absurd (congrArg Prod.snd heq) hne
  · -- what is written behind the best variant may have the same rank
    have hpairwise := pairwise_rankedPositions variants matched
    rw [hsplit, List.pairwise_append] at hpairwise
    have hlt : i < j := List.rel_of_pairwise_cons hpairwise.2.1 hmem
    exact (lt_or_eq_of_le (not_lt.1 hge)).imp_right fun heq => ⟨heq, hlt⟩

theorem bestVariant_eq_some_iff_precedes {i : Nat} : bestVariant variants matched = some i ↔
    ∃ v, variants[i]? = some v ∧ v.IsEligible matched ∧ ∀ j w, variants[j]? = some w →
      w.IsEligible matched → j ≠ i → Precedes matched v i w j := by
  refine ⟨precedes_of_bestVariant, ?_⟩
  rintro ⟨v, hv, heligible, hfirst⟩
  obtain ⟨rank, hrank⟩ := Variant.isEligible_iff.1 heligible
  obtain ⟨best, hbest⟩ := exists_bestVariant_of_rank? (List.mem_of_getElem? hv) hrank
  by_cases heq : best = i
  · rw [hbest, heq]
  -- otherwise each of the two would come before the other
  obtain ⟨w, hw, heligible', hfirst'⟩ := precedes_of_bestVariant hbest
  obtain ⟨other, hother⟩ := Variant.isEligible_iff.1 heligible'
  have hvw := (precedes_iff hrank hother).1 (hfirst best w hw heligible' heq)
  have hwv := (precedes_iff hother hrank).1 (hfirst' i v hv heligible (Ne.symm heq))
  rcases hvw with hlt | ⟨rfl, hlt⟩
  · rcases hwv with hgt | ⟨rfl, -⟩
    · exact absurd hgt (lt_asymm hlt)
    · exact absurd hlt (lt_irrefl _)
  · rcases hwv with hgt | ⟨-, hgt⟩
    · exact absurd hgt (lt_irrefl _)
    · exact absurd hgt (Nat.lt_asymm hlt)

/-- **The best variant is the first in the order of preference.**  There is none just if no variant
is eligible; otherwise it is the eligible variant that comes before all others.  Where a selector
has failed, its key is a catch-all. -/
theorem bestVariant_by_preference (variants : List Variant)
    (matched : List (Option (List String))) :
    (bestVariant variants matched = none ↔ ∀ v ∈ variants, ¬ v.IsEligible matched) ∧
      (∀ i, bestVariant variants matched = some i ↔ ∃ v, variants[i]? = some v ∧
        v.IsEligible matched ∧ ∀ j w, variants[j]? = some w → w.IsEligible matched → j ≠ i →
          Precedes matched v i w j) ∧
      ∀ i v, bestVariant variants matched = some i → variants[i]? = some v →
        ∀ (column : Nat) (key : VariantKey), matched[column]? = some none →
          v.keys[column]? = some key → key = .catchAll := by
  refine ⟨?_, fun i => bestVariant_eq_some_iff_precedes, fun i v hbest hv => ?_⟩
  · rw [bestVariant_eq_none_iff]
    refine forall₂_congr fun v _ => ?_
    rw [Variant.isEligible_iff, not_exists, Option.eq_none_iff_forall_ne_some]
  · obtain ⟨w, hw, heligible, -⟩ := precedes_of_bestVariant hbest
    obtain rfl := Option.some.inj (hv.symm.trans hw)
    exact fun column key => heligible.eq_catchAll

/-! ### What selectors decide -/

/-- The texts that are keys of a column, each where it is found first. -/
def candidates (variants : List Variant) (column : Nat) (texts : List String) : List String :=
  (texts.filter (· ∈ columnKeys variants column)).eraseDups

/-- What is matched, without the texts that are no keys and without repetitions. -/
def onlyCandidates (variants : List Variant) (matched : List (Option (List String))) :
    List (Option (List String)) :=
  matched.mapIdx fun column texts => texts.map (candidates variants column)

section Positions

variable {a b : String}

theorem mem_candidates {column : Nat} {texts : List String} (ha : a ∈ columnKeys variants column) :
    a ∈ candidates variants column texts ↔ a ∈ texts := by
  simp [candidates, ha]

theorem idxOf_candidates_lt_iff {column : Nat} (ha : a ∈ columnKeys variants column)
    (hb : b ∈ columnKeys variants column) (texts : List String) :
    (candidates variants column texts).idxOf a < (candidates variants column texts).idxOf b ↔
      texts.idxOf a < texts.idxOf b := by
  have hfilter := idxOf_filter_lt_iff (p := fun text => decide (text ∈ columnKeys variants column))
    (decide_eq_true ha) (decide_eq_true hb) texts
  rw [candidates, idxOf_eraseDups_lt_iff, hfilter]

end Positions

theorem matchedTexts_onlyCandidates (column : Nat) :
    matchedTexts (onlyCandidates variants matched) column =
      candidates variants column (matchedTexts matched column) := by
  have hnil : candidates variants column [] = [] := rfl
  rw [matchedTexts, matchedTexts, onlyCandidates, List.getElem?_mapIdx]
  cases matched[column]? with
  | none => exact hnil.symm
  | some texts =>
    cases texts with
    | none => exact hnil.symm
    | some texts => rfl

theorem value_mem_columnKeys {v : Variant} (hv : v ∈ variants) {column : Nat} {l : Literal}
    (hl : v.keys[column]? = some (.literal l)) : l.value ∈ columnKeys variants column :=
  mem_columnKeys.2 ⟨v, hv, _, hl, rfl⟩

theorem isEligible_onlyCandidates {v : Variant} (hv : v ∈ variants) :
    v.IsEligible (onlyCandidates variants matched) ↔ v.IsEligible matched := by
  have hlength : (onlyCandidates variants matched).length = matched.length := List.length_mapIdx
  constructor
  · rintro ⟨hkeys, hmem⟩
    refine ⟨hkeys.trans hlength, fun column l hl => ?_⟩
    obtain ⟨_, htexts, hmem⟩ := hmem column l hl
    rw [onlyCandidates, List.getElem?_mapIdx, Option.map_eq_some_iff] at htexts
    obtain ⟨texts, htexts, hmap⟩ := htexts
    obtain ⟨texts, rfl, rfl⟩ := Option.map_eq_some_iff.1 hmap
    exact ⟨texts, htexts, (mem_candidates (value_mem_columnKeys hv hl)).1 hmem⟩
  · rintro ⟨hkeys, hmem⟩
    refine ⟨hkeys.trans hlength.symm, fun column l hl => ?_⟩
    obtain ⟨texts, htexts, hmem⟩ := hmem column l hl
    refine ⟨candidates variants column texts, ?_,
      (mem_candidates (value_mem_columnKeys hv hl)).2 hmem⟩
    rw [onlyCandidates, List.getElem?_mapIdx, htexts]
    rfl

theorem prefersKeys_onlyCandidates {v w : Variant} (hv : v ∈ variants) (hw : w ∈ variants) :
    PrefersKeys (onlyCandidates variants matched) v.keys w.keys ↔
      PrefersKeys matched v.keys w.keys := by
  refine exists_congr fun column => exists_congr fun key => exists_congr fun other =>
    and_congr_right fun hkey => and_congr_right fun hother => and_congr_right fun _ => ?_
  rw [matchedTexts_onlyCandidates]
  cases key with
  | catchAll => rfl
  | literal l =>
    cases other with
    | catchAll => rfl
    | literal l' =>
      exact idxOf_candidates_lt_iff (value_mem_columnKeys hv hkey)
        (value_mem_columnKeys hw hother) _

/-- **Selectors decide by the order of the keys alone.**  Texts that are no keys, and repetitions,
make no difference to which variant is the best. -/
theorem bestVariant_onlyCandidates (variants : List Variant)
    (matched : List (Option (List String))) :
    bestVariant variants (onlyCandidates variants matched) = bestVariant variants matched := by
  ext i
  rw [bestVariant_eq_some_iff_precedes, bestVariant_eq_some_iff_precedes]
  refine exists_congr fun v => and_congr_right fun hv => ?_
  have hv := List.mem_of_getElem? hv
  refine and_congr (isEligible_onlyCandidates hv) (forall₂_congr fun j w => ?_)
  refine forall_congr' fun hw => ?_
  have hw := List.mem_of_getElem? hw
  rw [isEligible_onlyCandidates hw, Precedes, Precedes, prefersKeys_onlyCandidates hv hw]

end MessageFormat
