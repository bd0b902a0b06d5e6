import MessageFormat.Function.Basic

/-!
# Plural rules

The categories that languages sort numbers into, and the libraries that know how.  Which languages a
library knows, and how their rules read a number, is up to the library; here only what is asked of
one is said.  The rules see the number as written: `1` and `1.0` may be of different categories.

* `PluralLibrary.rulesFor` : the rules for a locale, or else for its language alone.
-/

namespace MessageFormat

/-- A plural category. -/
inductive PluralCategory where
  /-- None of something. -/
  | zero
  /-- A single thing. -/
  | one
  /-- A pair. -/
  | two
  /-- A small number. -/
  | few
  /-- A large number. -/
  | many
  /-- Any number that is of no other category. -/
  | other
deriving DecidableEq, Repr

namespace PluralCategory

/-- All categories. -/
def all : List PluralCategory := [zero, one, two, few, many, other]

/-- The name of the category. -/
def name : PluralCategory → String
  | zero => "zero"
  | one => "one"
  | two => "two"
  | few => "few"
  | many => "many"
  | other => "other"

/-- Whether a text names a category. -/
def isName (text : String) : Bool := all.any fun category => category.name == text

end PluralCategory

/-- What a number counts. -/
inductive PluralKind where
  /-- How many there are. -/
  | cardinal
  /-- Which one of many it is. -/
  | ordinal
deriving DecidableEq, Repr

/-! ### Libraries of rules -/

/-- The rules of a language for one kind of number: the category of the number with the given text,
or the reason why they put it into none. -/
abbrev PluralRules : Type := String → Except String PluralCategory

/-- A library of plural rules. -/
structure PluralLibrary where
  /-- The language of a locale alone, as a locale. -/
  language : Locale → Locale
  /-- The rules for exactly this locale, or the reason why there are none. -/
  rules : PluralKind → Locale → Except String PluralRules

namespace PluralLibrary

variable {library : PluralLibrary} {kind : PluralKind} {locale : Locale} {rules : PluralRules}

/-- The rules for a locale: its own, or else those of its language. -/
def rulesFor (library : PluralLibrary) (kind : PluralKind) (locale : Locale) :
    Except String PluralRules :=
  match library.rules kind locale with
  | .ok rules => .ok rules
  | .error _ => library.rules kind (library.language locale)

/-- What the library has for a locale: rules for exactly this locale, or, where it has none, rules
for its language alone. -/
inductive Provides (library : PluralLibrary) (kind : PluralKind) (locale : Locale)
    (rules : PluralRules) : Prop
  /-- Rules for exactly this locale. -/
  | exactly (h : library.rules kind locale = .ok rules)
  /-- Rules for its language. -/
  | byLanguage {reason : String} (hnone : library.rules kind locale = .error reason)
      (h : library.rules kind (library.language locale) = .ok rules)

theorem rulesFor_eq_ok_iff :
    library.rulesFor kind locale = .ok rules ↔ library.Provides kind locale rules := by
  unfold rulesFor
  constructor
  · intro h
    cases hexact : library.rules kind locale with
    | ok own =>
      rw [hexact] at h
      exact .exactly (hexact.trans h)
    | error reason =>
      rw [hexact] at h
      exact .byLanguage hexact h
  · rintro (h | ⟨hnone, h⟩)
    · rw [h]
    · rw [hnone, h]

/-- By what the library has for a locale, the number with a text is of a category. -/
def Puts (library : PluralLibrary) (kind : PluralKind) (locale : Locale) (text : String)
    (category : PluralCategory) : Prop :=
  ∃ rules, library.Provides kind locale rules ∧ rules text = .ok category

end PluralLibrary

end MessageFormat
