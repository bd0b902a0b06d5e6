import MessageFormat.Message.Basic

/-!
# Ranking variants

Which variant of a matcher is chosen.  Each selector has matched some keys, the best first, or has
failed to match any; a variant is eligible if each of its keys is matched or matches always.  Of two
eligible variants the one with fewer catch-all keys is better, then the one whose keys are better
matched, selector by selector, and then the one that comes first.

* `Variant.rank?` : the rank of an eligible variant;
* `bestVariant` : the position of the best variant.
-/

namespace MessageFormat

/-- The texts of the keys in one column of a matcher, each once, in the order written. -/
def columnKeys (variants : List Variant) (column : Nat) : List String :=
  (variants.filterMap fun v => v.keys[column]?.bind VariantKey.text?).eraseDups

/-- The place of a key among the keys that its selector has matched; a key that matches always comes
behind them.  Any other place behind them would do (`bestVariantWith_eq`). -/
def VariantKey.place? (matched : Option (List String)) : VariantKey → Option Nat
  | .literal l => matched.bind (·.idxOf? l.value)
  | .catchAll => some (matched.elim 0 List.length)

/-- The rank of a variant, if it is eligible: the count of its catch-all keys, and then the place of
each key. -/
def Variant.rank? (v : Variant) (matched : List (Option (List String))) : Option (List Nat) :=
  if v.keys.length = matched.length then
    ((matched.zipWith VariantKey.place? v.keys).mapM id).map (v.catchAllCount :: ·)
  else none

/-- The first of the items of least rank. -/
def firstLeast? {α : Type} : List (List Nat × α) → Option (List Nat × α)
  | [] => none
  | item :: rest =>
    match firstLeast? rest with
    | none => some item
    | some other => some (if other.1 < item.1 then other else item)

/-- The position of the best variant, if any is eligible. -/
def bestVariant (variants : List Variant) (matched : List (Option (List String))) : Option Nat :=
  (firstLeast? (variants.zipIdx.filterMap fun (v, position) =>
    (v.rank? matched).map fun rank => (rank, position))).map (·.2)

end MessageFormat
