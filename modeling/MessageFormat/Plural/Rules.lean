import MessageFormat.Plural.Basic
import MessageFormat.Plural.Operands

/-!
# A table of plural rules

The rules of some languages, for messages to be run with.  The categories of a language are tried in
the order of its rules, and a number that none of them holds of is of the category `other`.  What is
proved of numbers does not look into the table: it holds for every `PluralLibrary`.

* `PluralLibrary.builtIn` : the library of the table.
-/

namespace MessageFormat

/-- A category and when a number is of it. -/
abbrev PluralRule : Type := PluralCategory × (PluralOperands → Bool)

/-- The rules of a language, for both kinds of number. -/
structure PluralEntry where
  /-- The locale that they are for. -/
  tag : String
  /-- The rules for counts, if they are known. -/
  cardinal : Option (List PluralRule)
  /-- The rules for ranks, if they are known. -/
  ordinal : Option (List PluralRule)

namespace PluralEntry

/-- Whether a number is one of those from `low` to `high`. -/
def inRange (low high x : Nat) : Bool := low ≤ x && x ≤ high

/-! ### Rules of several languages -/

/-- One, written without a fraction. -/
def oneWhole : List PluralRule := [(.one, fun o => o.i == 1 && o.v == 0)]

/-- One, however written. -/
def oneOnly : List PluralRule := [(.one, fun o => o.isAmong [1])]

/-- When a whole number is of the category `few` in several Slavic languages. -/
def slavicFew (o : PluralOperands) : Bool :=
  o.v == 0 && inRange 2 4 (o.i % 10) && !inRange 12 14 (o.i % 100)

/-- The counts of Russian and Ukrainian. -/
def eastSlavic : List PluralRule :=
  [(.few, slavicFew),
    (.many, fun o => o.v == 0 &&
      (o.i % 10 == 0 || inRange 5 9 (o.i % 10) || inRange 11 14 (o.i % 100))),
    (.one, fun o => o.v == 0 && o.i % 10 == 1 && o.i % 100 != 11)]

/-! ### The table -/

/-- The rules of all languages that they are known for. -/
def table : List PluralEntry :=
  [⟨"en", oneWhole,
      some [(.few, fun o => o.i % 10 == 3 && o.i % 100 != 13),
        (.one, fun o => o.i % 10 == 1 && o.i % 100 != 11),
        (.two, fun o => o.i % 10 == 2 && o.i % 100 != 12)]⟩,
    ⟨"pl",
      some [(.few, slavicFew),
        (.many, fun o => o.v == 0 && (o.i != 1 && inRange 0 1 (o.i % 10) ||
          inRange 5 9 (o.i % 10) || inRange 12 14 (o.i % 100))),
        (.one, fun o => o.i == 1 && o.v == 0)],
      some []⟩,
    ⟨"ru", eastSlavic, some []⟩,
    ⟨"uk", eastSlavic, some [(.few, fun o => o.i % 10 == 3 && o.i % 100 != 13)]⟩,
    ⟨"be",
      some [(.few, fun o => inRange 2 4 o.i && !inRange 12 14 o.i),
        (.many, fun o => o.i % 10 == 0 || inRange 5 9 o.i || inRange 11 14 o.i),
        (.one, fun o => o.i % 10 == 1 && o.i % 100 != 11)],
      some [(.few, fun o => (o.i % 10 == 2 || o.i % 10 == 3) && o.i % 100 != 12 &&
        o.i % 100 != 13)]⟩,
    ⟨"sr",
      some [(.few, fun o => slavicFew o || inRange 2 4 (o.f % 10) && !inRange 12 14 (o.f % 100)),
        (.one, fun o => o.v == 0 && o.i % 10 == 1 && o.i % 100 != 11 ||
          o.f % 10 == 1 && o.f % 100 != 11)],
      some []⟩,
    ⟨"cs",
      some [(.few, fun o => inRange 2 4 o.i && o.v == 0), (.many, fun o => o.v != 0),
        (.one, fun o => o.i == 1 && o.v == 0)],
      some []⟩,
    ⟨"sl",
      some [(.few, fun o => o.v == 0 && inRange 3 4 (o.i % 100) || o.v != 0),
        (.one, fun o => o.v == 0 && o.i % 100 == 1),
        (.two, fun o => o.v == 0 && o.i % 100 == 2)],
      some []⟩,
    ⟨"lt",
      some [(.few, fun o => inRange 2 9 o.i && !inRange 11 19 o.i), (.many, fun o => o.f != 0),
        (.one, fun o => o.i % 10 == 1 && !inRange 11 19 o.i)],
      some []⟩,
    ⟨"lv",
      some [(.one, fun o => o.i % 10 == 1 && o.i % 100 != 11 ||
          o.v == 2 && o.f % 10 == 1 && o.f % 100 != 11 || o.v != 2 && o.f % 10 == 1),
        (.zero, fun o => o.i % 10 == 0 || inRange 11 19 o.i ||
          o.v == 2 && inRange 11 19 (o.f % 100))],
      some []⟩,
    ⟨"ar",
      some [(.few, fun o => inRange 3 10 o.i), (.many, fun o => inRange 11 99 o.i),
        (.one, fun o => o.isAmong [1]), (.two, fun o => o.isAmong [2]),
        (.zero, fun o => o.isAmong [0])],
      some []⟩,
    ⟨"he",
      some [(.many, fun o => o.v == 0 && !inRange 0 10 o.i && o.f == 0 && o.i % 10 == 0),
        (.one, fun o => o.i == 1 && o.v == 0), (.two, fun o => o.i == 2 && o.v == 0)],
      some []⟩,
    ⟨"mt",
      some [(.few, fun o => o.isAmong [0] || inRange 2 10 o.i), (.many, fun o => inRange 11 19 o.i),
        (.one, fun o => o.isAmong [1])],
      none⟩,
    ⟨"cy",
      some [(.few, fun o => o.isAmong [3]), (.many, fun o => o.isAmong [6]),
        (.one, fun o => o.isAmong [1]), (.two, fun o => o.isAmong [2]),
        (.zero, fun o => o.isAmong [0])],
      some [(.few, fun o => o.isAmong [3, 4]), (.many, fun o => o.isAmong [5, 6]),
        (.one, fun o => o.isAmong [1]), (.two, fun o => o.isAmong [2]),
        (.zero, fun o => o.isAmong [0, 7, 8, 9])]⟩,
    ⟨"ga",
      some [(.few, fun o => inRange 3 6 o.i && o.f == 0),
        (.many, fun o => inRange 7 10 o.i && o.f == 0), (.one, fun o => o.isAmong [1]),
        (.two, fun o => o.isAmong [2])],
      oneOnly⟩,
    ⟨"fr", some [(.one, fun o => inRange 0 1 o.i)], oneOnly⟩,
    ⟨"pt", some [(.one, fun o => inRange 0 1 o.i)], some []⟩,
    ⟨"pt-PT", oneWhole, none⟩,
    ⟨"es", oneOnly, some []⟩,
    ⟨"it", oneWhole, some [(.many, fun o => o.isAmong [8, 11, 80, 800])]⟩,
    ⟨"de", oneWhole, some []⟩,
    ⟨"sv", oneWhole,
      some [(.one, fun o => (o.i % 10 == 1 || o.i % 10 == 2) && o.i % 100 != 11 &&
        o.i % 100 != 12)]⟩,
    ⟨"da",
      some [(.one, fun o => o.isAmong [1] || o.t != 0 && inRange 0 1 o.i)],
      some []⟩,
    ⟨"ja", some [], some []⟩]

/-- The rules that the table has for exactly this locale. -/
def find? (kind : PluralKind) (locale : Locale) : Option (List PluralRule) :=
  (table.find? (·.tag == locale.tag)).bind fun entry =>
    match kind with
    | .cardinal => entry.cardinal
    | .ordinal => entry.ordinal

end PluralEntry

/-- The category that some rules put a number into. -/
def PluralCategory.ofOperands (rules : List PluralRule) (o : PluralOperands) : PluralCategory :=
  ((rules.find? fun rule => rule.2 o).map (·.1)).getD .other

/-- The category that some rules put the number of a text into. -/
def PluralCategory.ofText (rules : List PluralRule) : PluralRules := fun text =>
  match PluralOperands.ofText? text.toList with
  | some operands => .ok (.ofOperands rules operands)
  | none => .error "Argument can not be parsed to operands."

/-- The library of the table.  The language of a locale is its tag up to the first hyphen. -/
def PluralLibrary.builtIn : PluralLibrary where
  language locale := ⟨String.ofList (locale.tag.toList.takeWhile (· != '-'))⟩
  rules kind locale :=
    match PluralEntry.find? kind locale with
    | some rules => .ok (PluralCategory.ofText rules)
    | none => .error "unknown locale"

end MessageFormat
