import MessageFormat.Proofs.Places

/-!
# Cutting a line out of a source

The line that an error shows is cut out of its source by counting bytes.  A cut fails if it goes
beyond the source or through a character, and every cut is made only if the span starts between two
characters.

* `Span.sourceLine?` : the line of a span, if all cuts can be made;
* `Span.isSome_sourceLine?_iff` : they can be made for the spans that start between characters, and
  for those that start beyond the source;
* `Span.sourceLine?_eq` : what is cut out is then the line.
-/

namespace MessageFormat

namespace Span

variable {span : Span} {source : String}

/-! ### Where spans start -/

/-- The span starts before, between or behind the characters of the source, or beyond all of
them. -/
def StartsApart (span : Span) (source : String) : Prop :=
  source.utf8ByteSize ≤ span.start ∨ ∃ before behind,
    source.toList = before ++ behind ∧ span.start = (String.ofList before).utf8ByteSize

theorem splitBytes_of_le {bytes : Nat} {text : List Char}
    (h : (String.ofList text).utf8ByteSize ≤ bytes) : splitBytes bytes text = (text, []) := by
  induction text generalizing bytes with
  | nil => rfl
  | cons c text ih =>
    rw [utf8ByteSize_cons] at h
    rw [splitBytes, if_pos (by omega), ih (by omega)]

/-- The source is split where the span starts, or at its end if the span starts beyond it. -/
theorem StartsApart.exists_split (h : span.StartsApart source) : ∃ before behind,
    source.toList = before ++ behind ∧ splitBytes span.start source.toList = (before, behind) ∧
      min span.start source.utf8ByteSize = (String.ofList before).utf8ByteSize := by
  rcases h with hbeyond | ⟨before, behind, hsource, hstart⟩
  · have hsize : (String.ofList source.toList).utf8ByteSize ≤ span.start := by
      rwa [String.ofList_toList]
    refine ⟨source.toList, [], (List.append_nil _).symm, splitBytes_of_le hsize, ?_⟩
    rw [String.ofList_toList, Nat.min_eq_right hbeyond]
  · have hsize : source.utf8ByteSize =
        (String.ofList before).utf8ByteSize + (String.ofList behind).utf8ByteSize := by
      rw [← utf8ByteSize_append, ← hsource, String.ofList_toList]
    refine ⟨before, behind, hsource, ?_, by omega⟩
    rw [hsource, hstart, splitBytes_append]

/-! ### Cuts -/

theorem exists_append_of_dropBytes? {bytes : Nat} {text rest : List Char}
    (h : dropBytes? bytes text = some rest) :
    ∃ before, text = before ++ rest ∧ (String.ofList before).utf8ByteSize = bytes := by
  induction text generalizing bytes with
  | nil =>
    cases bytes with
    | zero => exact ⟨[], Option.some.inj h, rfl⟩
    | succ bytes => cases h
  | cons c text ih =>
    cases bytes with
    | zero => exact ⟨[], Option.some.inj h, rfl⟩
    | succ bytes =>
      rw [dropBytes?] at h
      split at h
      · obtain ⟨before, rfl, hsize⟩ := ih h
        refine ⟨c :: before, rfl, ?_⟩
        rw [utf8ByteSize_cons]
        omega
      · cases h

/-- The line of the source on which the span begins, cut out of the source by counting bytes: the
source is cut in two where the span starts, and the line goes from behind the last line feed before
this cut up to the next one behind it. -/
def sourceLine? (span : Span) (source : String) : Option String := do
  let start := min span.start source.utf8ByteSize
  let before ← slice? { span with start := 0, stop := start } source.toList
  let behind ← slice? { span with start, stop := source.utf8ByteSize } source.toList
  let lead := (before.reverse.takeWhile (· != '\n')).reverse
  let trail := behind.takeWhile (· != '\n')
  text? { span with
    start := start - (String.ofList lead).utf8ByteSize
    stop := start + (String.ofList trail).utf8ByteSize } source

/-- The line around a place in a text is cut out where it begins and ends. -/
theorem slice?_line {before behind : List Char}
    (hstart : span.start = (String.ofList before).utf8ByteSize -
      (String.ofList (before.reverse.takeWhile (· != '\n')).reverse).utf8ByteSize)
    (hstop : span.stop = (String.ofList before).utf8ByteSize +
      (String.ofList (behind.takeWhile (· != '\n'))).utf8ByteSize) :
    span.slice? (before ++ behind) = some
      ((before.reverse.takeWhile (· != '\n')).reverse ++ behind.takeWhile (· != '\n')) := by
  have hbefore : before = (before.reverse.dropWhile (· != '\n')).reverse ++
      (before.reverse.takeWhile (· != '\n')).reverse := by
    rw [← List.reverse_append, List.takeWhile_append_dropWhile, List.reverse_reverse]
  have hbehind := (List.takeWhile_append_dropWhile (p := (· != '\n')) (l := behind)).symm
  generalize (before.reverse.takeWhile (· != '\n')).reverse = lead at *
  generalize (before.reverse.dropWhile (· != '\n')).reverse = front at *
  generalize behind.takeWhile (· != '\n') = trail at *
  generalize behind.dropWhile (· != '\n') = rest at *
  subst hbefore hbehind
  rw [utf8ByteSize_append] at hstart hstop
  rw [List.append_assoc, ← List.append_assoc lead]
  refine slice?_append front (lead ++ trail) rest (by omega) ?_
  rw [utf8ByteSize_append, utf8ByteSize_append]
  omega

/-- What is cut out for a span that starts between characters is its line. -/
theorem sourceLine?_eq (h : span.StartsApart source) :
    span.sourceLine? source = some (span.sourceLine source) := by
  obtain ⟨before, behind, hsource, hsplit, hstart⟩ := h.exists_split
  have hsize : source.utf8ByteSize = (String.ofList (before ++ behind)).utf8ByteSize := by
    rw [← hsource, String.ofList_toList]
  have hbefore : slice? { span with start := 0, stop := (String.ofList before).utf8ByteSize }
      source.toList = some before :=
    hsource ▸ slice?_append [] before behind rfl rfl
  have hbehind : slice? { span with
      start := (String.ofList before).utf8ByteSize, stop := source.utf8ByteSize }
      source.toList = some behind := by
    have hwhole := @slice?_append { span with
      start := (String.ofList before).utf8ByteSize, stop := source.utf8ByteSize }
      before behind [] rfl hsize
    rwa [List.append_nil, ← hsource] at hwhole
  rw [sourceLine?, hstart, hbefore, hbehind, sourceLine, hsplit]
  simp only [Option.bind_eq_bind, Option.bind_some]
  rw [text?, hsource, slice?_line rfl rfl]
  rfl

/-- **A line can be cut out of the source if and only if the span starts between two characters, or
beyond the source.** -/
theorem isSome_sourceLine?_iff : (span.sourceLine? source).isSome ↔ span.StartsApart source := by
  constructor
  · intro h
    obtain ⟨line, hline⟩ := Option.isSome_iff_exists.1 h
    obtain ⟨before, -, hcut⟩ := Option.bind_eq_some_iff.1 hline
    obtain ⟨behind, hbehind, -⟩ := Option.bind_eq_some_iff.1 hcut
    -- the second half of the source begins where the span starts
    rw [slice?] at hbehind
    split at hbehind
    · obtain ⟨rest, hdrop, -⟩ := Option.bind_eq_some_iff.1 hbehind
      obtain ⟨front, hsource, hsize⟩ := exists_append_of_dropBytes? hdrop
      by_cases hbeyond : source.utf8ByteSize ≤ span.start
      · exact .inl hbeyond
      · exact .inr ⟨front, rest, hsource, by dsimp only at hsize; omega⟩
    · cases hbehind
  · intro h
    rw [sourceLine?_eq h]
    rfl

end Span

end MessageFormat
