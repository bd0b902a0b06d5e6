import MessageFormat.Proofs.Brackets
import MessageFormat.Proofs.Escaping

/-!
# Messages of text alone

A simple message of some texts is printed as the escaped text of all of them in a row.  Text that
begins with a point is put between double braces, since it would be read as a complex message; but
only the first of the texts is looked at.  Where that is empty or blank, and a point follows, the
braces are missing, and what is printed cannot be read at all: in escaped text, no two opening
braces stand side by side, and so there is no pattern for a complex message to end in.

* `print_textMessage` : the text of such a message;
* `parse_escapeText_ne_ok` : text that begins with a point is not read without braces;
* `reread_textMessage` : which of these messages are read as the text that they are.
-/

namespace MessageFormat

/-- The message of some texts. -/
def textMessage (texts : List String) : Message := .simple (texts.map .text)

/-! ### Printing -/

theorem escapeText_join (texts : List String) :
    String.join (texts.map escapeText) = escapeText (String.join texts) := by
  rw [← String.toList_inj, String.toList_join, escapeText, toList_escape, String.toList_join,
    List.flatMap_assoc, List.flatMap_map]
  exact congrArg (List.flatMap · texts) (funext fun text => toList_escape _ text)

theorem print_texts (texts : List String) :
    Pattern.print (texts.map .text) = escapeText (String.join texts) := by
  rw [Pattern.print, List.map_map, ← escapeText_join]
  rfl

/-- Only the first text tells whether there are braces around the message. -/
theorem print_textMessage (texts : List String) : (textMessage texts).print =
    if beginsWithPoint (texts.headD "").toList then
      "\x7b\x7b" ++ escapeText (String.join texts) ++ "\x7d\x7d"
    else escapeText (String.join texts) := by
  have hfirst : Pattern.beginsWithPoint (texts.map .text) =
      beginsWithPoint (texts.headD "").toList := by
    cases texts <;> rfl
  rw [textMessage, Message.print, hfirst, Pattern.printQuoted, print_texts]

/-! ### Reading without braces -/

/-- In escaped text, an opening brace stands behind a backslash and not behind another brace. -/
theorem isChain_escapeText (text : String) :
    (escapeText text).toList.IsChain fun a b => a = '{' → b ≠ '{' := by
  rw [escapeText, toList_escape]
  generalize text.toList = characters
  suffices h : ∀ special : Char → Bool, special '{' = true →
      (characters.flatMap fun c => if special c then ['\\', c] else [c]).head? ≠ some '{' ∧
        (characters.flatMap fun c => if special c then ['\\', c] else [c]).IsChain
          fun a b => a = '{' → b ≠ '{' from (h _ rfl).2
  intro special hspecial
  induction characters with
  | nil => exact ⟨(Option.some_ne_none _).symm, .nil⟩
  | cons c rest ih =>
    obtain ⟨hhead, hchain⟩ := ih
    have hnext : ∀ b ∈ (rest.flatMap fun c => if special c then ['\\', c] else [c]).head?,
        c = '{' → b ≠ '{' := by
      rintro b hb - rfl
      exact hhead hb
    have hcons := List.isChain_cons.2 ⟨hnext, hchain⟩
    rw [List.flatMap_cons]
    by_cases hc : special c = true
    · rw [if_pos hc]
      have hne : '\\' ≠ '{' := by decide
      refine ⟨fun h => hne (Option.some.inj h), List.isChain_cons_cons.2 ⟨?_, hcons⟩⟩
      exact fun h => absurd h hne
    · rw [if_neg hc]
      refine ⟨fun heq => hc ?_, hcons⟩
      rw [Option.some.inj heq, hspecial]

/-- A complex message has a pattern between double braces. -/
theorem exists_patternOpen {tokens : List Token} {declarations : List Declaration}
    {body : MessageBody} (h : Message.DerivesInner tokens (.complex declarations body)) :
    ∃ token ∈ tokens, token.kind = .patternOpen := by
  have hquoted : ∀ {tokens : List Token} {pattern : Pattern},
      Pattern.DerivesQuoted tokens pattern → ∃ token ∈ tokens, token.kind = .patternOpen := by
    intro tokens pattern h
    obtain ⟨opening, inside, rfl, hopening⟩ := h.exists_opening
    exact ⟨opening, List.mem_cons_self, hopening⟩
  cases h with
  | complex _ _ hbody _ =>
    cases hbody with
    | pattern hpattern =>
      obtain ⟨token, hmem, hkind⟩ := hquoted hpattern
      exact ⟨token, by simp [hmem], hkind⟩
    | matcher hmatcher =>
      cases hmatcher with
      | intro _ _ _ hvariants hvaried =>
        cases hvariants with
        | nil => exact absurd rfl hvaried
        | cons hvariant _ =>
          cases hvariant with
          | intro _ hvariant =>
            cases hvariant with
            | intro _ _ _ hpattern =>
              obtain ⟨token, hmem, hkind⟩ := hquoted hpattern
              exact ⟨token, by simp [hmem], hkind⟩

/-- The first token of a pattern is text or a brace. -/
theorem exists_token_of_pattern {tokens : List Token} {pattern : Pattern}
    (h : Pattern.Derives tokens pattern) (hne : tokens ≠ []) : ∃ first later,
      tokens = first :: later ∧ (first.kind = .text ∨ first.kind = .expressionOpen) := by
  cases h with
  | nil => exact absurd rfl hne
  | cons hpart _ =>
    cases hpart with
    | text hkind => exact ⟨_, _, rfl, .inl hkind⟩
    | expression he =>
      obtain ⟨opening, inside, rfl, hopening⟩ := he.exists_opening
      exact ⟨opening, _, rfl, .inr hopening⟩
    | markup hm =>
      obtain ⟨opening, inside, rfl, hopening⟩ := hm.exists_opening
      exact ⟨opening, _, rfl, .inr hopening⟩

/-- **Escaped text that begins with a point is not read as anything.** -/
theorem parse_escapeText_ne_ok {text : String} (h : '\x00' ∉ text.toList)
    (hpoint : beginsWithPoint text.toList = true) (m : Message) :
    parse (escapeText text) ≠ .ok m := by
  intro hparse
  obtain ⟨tokens, stop, path, hstop, hderives⟩ := parse_eq_ok_iff_path.1 hparse
  have hbegins : Context.beginsComplex (escapeText text).toList = true := by
    have hrest : Context.beginsComplex ((escapeText text).toList ++ []) = true :=
      (decodes_escapeText h).beginsComplex hpoint
    rwa [List.append_nil] at hrest
  have hchain := isChain_escapeText text
  rw [if_pos hbegins] at path
  generalize (escapeText text).toList = characters at path hbegins hchain
  have hspells : SpellsOut tokens characters stop.rest := path.spellsOut
  cases hderives with
  | simple hpattern =>
    -- the first token would be a keyword or two braces
    have hne : tokens ≠ [] := by
      rintro rfl
      rw [hstop] at hspells
      cases hspells
      cases hbegins
    obtain ⟨first, later, rfl, hkind⟩ := exists_token_of_pattern hpattern hne
    have hblank : first.isBlank = false := by
      rcases hkind with hkind | hkind <;> rw [Token.isBlank, hkind] <;> rfl
    have hfirst := path.find?_of_beginsComplex rfl hbegins first
      (List.find?_cons_of_pos (by rw [hblank]; rfl))
    rcases hkind with hkind | hkind <;> rw [hkind] at hfirst <;> revert hfirst <;> decide
  | complex hgap hdeclarations hbody hfinal =>
    -- somewhere there would be two braces side by side
    obtain ⟨token, hmem, hkind⟩ :=
      exists_patternOpen (.complex hgap hdeclarations hbody hfinal)
    obtain ⟨before, behind, hsplit⟩ := List.append_of_mem hmem
    rw [hsplit] at hspells
    obtain ⟨middle, hbefore, hrest⟩ := spellsOut_append_iff.1 hspells
    obtain ⟨front, hfront, -⟩ := hbefore.exists_front
    cases hrest with
    | @cons _ _ taken later _ htoken _ =>
      rw [Token.Spells, hkind] at htoken
      rw [hfront, htoken.1, htoken.2] at hchain
      have hbraces := hchain.infix ⟨front, later, List.append_assoc _ _ _⟩
      exact (List.isChain_cons_cons.1 hbraces).1 rfl rfl

/-! ### Reading what is printed -/

/-- **Which messages of text are read as the text that they are.**  If the texts in a row do not
begin with a point, or if the first of them does, then what is printed is read as a valid message
that is formatted as the texts in a row, without errors; and if they begin with a point, there are
braces around what is printed.  But if they begin with a point and the first of them does not, what
is printed is not read at all. -/
theorem reread_textMessage {texts : List String} (hnul : ∀ text ∈ texts, '\x00' ∉ text.toList) :
    ((beginsWithPoint (String.join texts).toList = true →
        beginsWithPoint (texts.headD "").toList = true) →
      (∃ m, parse (textMessage texts).print = .ok m ∧ m.validate = .ok () ∧
        ∀ env : Environment, env.format m = ⟨String.join texts, []⟩) ∧
      (beginsWithPoint (String.join texts).toList = true → (textMessage texts).print =
        "\x7b\x7b" ++ escapeText (String.join texts) ++ "\x7d\x7d")) ∧
    (beginsWithPoint (String.join texts).toList = true →
      beginsWithPoint (texts.headD "").toList = false →
        ∀ m, parse (textMessage texts).print ≠ .ok m) := by
  have hjoin : '\x00' ∉ (String.join texts).toList := by
    rw [String.toList_join, List.mem_flatMap]
    rintro ⟨text, hmem, hchar⟩
    exact hnul text hmem hchar
  refine ⟨fun hshows => ⟨?_, fun hpoint => ?_⟩, fun hpoint hfirst m => ?_⟩
  · by_cases hfirst : beginsWithPoint (texts.headD "").toList = true
    · rw [print_textMessage, if_pos hfirst]
      exact ⟨_, parse_quoted_escapeText hjoin, validate_quoted_plainPattern _, fun env =>
        env.join_formatPattern_plainPattern _ _⟩
    · have hpoint := Bool.eq_false_iff.2 (mt hshows hfirst)
      rw [print_textMessage, if_neg hfirst]
      exact ⟨_, parse_escapeText hjoin hpoint, validate_plainPattern _, fun env =>
        env.join_formatPattern_plainPattern _ _⟩
  · rw [print_textMessage, if_pos (hshows hpoint)]
  · rw [print_textMessage, if_neg (Bool.eq_false_iff.1 hfirst)]
    exact parse_escapeText_ne_ok hjoin hpoint m

/-- A text that begins with a blank and a point, and another one. -/
theorem reread_textMessage_hidden :
    (∀ text ∈ [" .hid", "den"], '\x00' ∉ text.toList) ∧
      (textMessage [" .hid", "den"]).print = "\x7b\x7b .hidden\x7d\x7d" ∧
      ∃ m, parse (textMessage [" .hid", "den"]).print = .ok m ∧ m.validate = .ok () ∧
        ∀ env : Environment, env.format m = ⟨" .hidden", []⟩ := by
  have hnul : ∀ text ∈ [" .hid", "den"], '\x00' ∉ text.toList := by decide
  obtain ⟨hread, hprint⟩ := (reread_textMessage hnul).1 fun _ => rfl
  exact ⟨hnul, hprint rfl, hread⟩

/-- Behind a first text that is empty, a point is overlooked. -/
theorem not_reread_textMessage :
    ¬ ∀ texts : List String, (∀ text ∈ texts, '\x00' ∉ text.toList) →
      ∃ m, parse (textMessage texts).print = .ok m := by
  intro h
  have hpoint : ∀ m, parse (escapeText ".x") ≠ .ok m := parse_escapeText_ne_ok (by decide) rfl
  obtain ⟨m, hparse⟩ := h ["", ".x"] (by decide)
  rw [print_textMessage] at hparse
  exact hpoint m hparse

end MessageFormat
