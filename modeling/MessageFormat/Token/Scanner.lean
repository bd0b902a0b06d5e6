import MessageFormat.Text.Character
import MessageFormat.Token.Fault

/-!
# Scanners

A scanner takes characters off the front of a text.  Whether it succeeds or not, it accounts for all
of them: what it took and what it left make up the text (`Scanner.Covers`).  A fault lies between
the two.

The scanners of this file know the spellings of single items: runs of a class, decoded text, names,
identifiers and numbers.
-/

namespace MessageFormat

/-- What a scanner made of a text. -/
structure Scan (α : Type) where
  /-- The characters taken. -/
  taken : List Char
  /-- The characters left. -/
  rest : List Char
  /-- The item scanned, or the fault found between the two. -/
  result : Except Fault α

/-- The scan with one decoded character, spelled out, in front. -/
def Scan.push (spelling : List Char) (c : Char) (scan : Scan (List Char)) : Scan (List Char) :=
  ⟨spelling ++ scan.taken, scan.rest, scan.result.map (c :: ·)⟩

/-- A scanner of items. -/
def Scanner (α : Type) : Type := List Char → Scan α

namespace Scanner

variable {α β : Type}

instance : Monad Scanner where
  pure a := fun text => ⟨[], text, .ok a⟩
  bind s f := fun text =>
    match (s text).result with
    | .ok a =>
      let next := f a (s text).rest
      ⟨(s text).taken ++ next.taken, next.rest, next.result⟩
    | .error fault => ⟨(s text).taken, (s text).rest, .error fault⟩

/-! ### Single characters and runs -/

/-- The next character, which stays. -/
def peek : Scanner (Option Char) := fun text => ⟨[], text, .ok text.head?⟩

/-- A fault at the next character. -/
def fail (fault : Fault) : Scanner α := fun text => ⟨[], text, .error fault⟩

/-- Takes `n` characters, or as many as there are. -/
def take (n : Nat) : Scanner (List Char) := fun text =>
  ⟨text.take n, text.drop n, .ok (text.take n)⟩

/-- Takes the longest run of characters of a class. -/
def takeWhile (p : Char → Bool) : Scanner (List Char) := fun text =>
  ⟨text.takeWhile p, text.dropWhile p, .ok (text.takeWhile p)⟩

/-- Runs a scanner for its spelling. -/
def spelling (s : Scanner α) : Scanner (List Char) := fun text =>
  ⟨(s text).taken, (s text).rest, (s text).result.map fun _ => (s text).taken⟩

/-- Takes the next character and, if it is of the class, runs the scanner; otherwise nothing. -/
def whenNext (p : Char → Bool) (s : Scanner Unit) : Scanner Unit := do
  match ← peek with
  | some c => if p c then do let _ ← take 1; s else return
  | none => return

/-- Takes one or more characters of a class. -/
def takeSome (p : Char → Bool) (missing : Fault) : Scanner (List Char) := do
  match ← peek with
  | some c => if p c then takeWhile p else fail missing
  | none => fail missing

/-! ### Decoded text -/

/-- Takes characters of a class and escapes, as far as they go, and decodes the escapes. -/
def decoded (plain : Char → Bool) : List Char → Scan (List Char)
  | [] => ⟨[], [], .ok []⟩
  | ['\\'] => ⟨['\\'], [], .error .openEscape⟩
  | '\\' :: c :: rest =>
    if isEscapable c then (decoded plain rest).push ['\\', c] c
    else ⟨['\\'], c :: rest, .error (.illegalEscape c)⟩
  | c :: rest =>
    if plain c then (decoded plain rest).push [c] c
    else ⟨[], c :: rest, .ok []⟩

/-- Text of a pattern, up to a brace or the end. -/
def patternText : Scanner (List Char) := do
  let text ← (decoded isTextChar : Scanner (List Char))
  match ← peek with
  | some c => if c == '{' || c == '}' then return text else fail (.illegalInPattern c)
  | none => return text

/-- A text between bars. -/
def quoted : Scanner (List Char) := do
  let _ ← take 1
  let text ← (decoded isQuotedChar : Scanner (List Char))
  match ← peek with
  | some c => if c == '|' then do let _ ← take 1; return text else fail (.illegalInQuotes c)
  | none => fail .openQuotes

/-! ### Names and numbers -/

/-- A name. -/
def name (missing : Fault) : Scanner (List Char) := do
  match ← peek with
  | some c => if isNameStart c then takeWhile isNameChar else fail missing
  | none => fail missing

/-- A colon and the name behind it; a colon before anything else stays. -/
def qualified : Scanner (List Char) := fun text =>
  match text with
  | ':' :: c :: rest =>
    if isNameStart c then spelling (do let _ ← take 1; takeWhile isNameChar) (':' :: c :: rest)
    else ⟨[], ':' :: c :: rest, .ok []⟩
  | text => ⟨[], text, .ok []⟩

/-- A name, or two joined by a colon. -/
def identifier : Scanner (List Char) := do
  let first ← name .missingName
  let second ← qualified
  return first ++ second

/-- What stands behind a sigil of one character. -/
def behind (s : Scanner (List Char)) : Scanner (List Char) := do
  let _ ← take 1
  s

/-- The integer part of a number, which begins with a zero only if it is one. -/
def integer : Scanner Unit := do
  match ← peek with
  | some '0' => do let _ ← take 1
  | _ => do let _ ← takeSome isDigit .missingInteger

/-- The fraction of a number. -/
def fraction : Scanner Unit :=
  whenNext (· == '.') do let _ ← takeSome isDigit .missingFraction

/-- The exponent of a number. -/
def exponent : Scanner Unit :=
  whenNext (fun c => c == 'e' || c == 'E') do
    whenNext (fun c => c == '+' || c == '-') (pure ())
    let _ ← takeSome isDigit .missingExponent

/-- A number.  It ends where a name could not go on, so that it cannot be taken for the start of
one. -/
def number : Scanner (List Char) := spelling do
  whenNext (· == '-') (pure ())
  integer
  fraction
  exponent
  match ← peek with
  | some c => if isNameChar c then fail (.numberRunsOn c) else return
  | none => return

/-! ### Coverage -/

/-- The scanner accounts for every character: those that it took and those that it left make up the
text. -/
def Covers (s : Scanner α) : Prop := ∀ text, (s text).taken ++ (s text).rest = text

theorem covers_pure (a : α) : Covers (pure a : Scanner α) := fun _ => rfl

theorem covers_bind {s : Scanner α} {f : α → Scanner β} (hs : Covers s) (hf : ∀ a, Covers (f a)) :
    Covers (s >>= f) := by
  intro text
  simp only [bind]
  split
  · rename_i a _
    simpa [List.append_assoc, hf a (s text).rest] using hs text
  · exact hs text

theorem covers_peek : Covers peek := fun _ => rfl

theorem covers_fail (fault : Fault) : Covers (fail fault : Scanner α) := fun _ => rfl

theorem covers_take (n : Nat) : Covers (take n) := fun text => List.take_append_drop n text

theorem covers_takeWhile (p : Char → Bool) : Covers (takeWhile p) := fun _ =>
  List.takeWhile_append_dropWhile

theorem covers_spelling {s : Scanner α} (hs : Covers s) : Covers (spelling s) := hs

theorem covers_decoded (plain : Char → Bool) : Covers (decoded plain) := by
  intro text
  fun_induction decoded plain text <;> simp_all [Scan.push]

theorem covers_whenNext {p : Char → Bool} {s : Scanner Unit} (hs : Covers s) :
    Covers (whenNext p s) := by
  refine covers_bind covers_peek fun next => ?_
  split
  · split
    · exact covers_bind (covers_take 1) fun _ => hs
    · exact covers_pure ()
  · exact covers_pure ()

theorem covers_takeSome (p : Char → Bool) (missing : Fault) : Covers (takeSome p missing) := by
  refine covers_bind covers_peek fun next => ?_
  split
  · split
    · exact covers_takeWhile p
    · exact covers_fail missing
  · exact covers_fail missing

theorem covers_patternText : Covers patternText := by
  refine covers_bind (covers_decoded _) fun text => covers_bind covers_peek fun next => ?_
  split
  · split
    · exact covers_pure text
    · exact covers_fail _
  · exact covers_pure text

theorem covers_quoted : Covers quoted := by
  refine covers_bind (covers_take 1) fun _ => covers_bind (covers_decoded _) fun text =>
    covers_bind covers_peek fun next => ?_
  split
  · split
    · exact covers_bind (covers_take 1) fun _ => covers_pure text
    · exact covers_fail _
  · exact covers_fail _

theorem covers_name (missing : Fault) : Covers (name missing) := by
  refine covers_bind covers_peek fun next => ?_
  split
  · split
    · exact covers_takeWhile _
    · exact covers_fail missing
  · exact covers_fail missing

theorem covers_qualified : Covers qualified := by
  intro text
  unfold qualified
  split
  · split
    · exact covers_spelling (covers_bind (covers_take 1) fun _ => covers_takeWhile _) _
    · rfl
  · rfl

theorem covers_identifier : Covers identifier :=
  covers_bind (covers_name _) fun _ => covers_bind covers_qualified fun _ => covers_pure _

theorem covers_behind {s : Scanner (List Char)} (hs : Covers s) : Covers (behind s) :=
  covers_bind (covers_take 1) fun _ => hs

theorem covers_integer : Covers integer := by
  refine covers_bind covers_peek fun next => ?_
  split
  · exact covers_bind (covers_take 1) fun _ => covers_pure ()
  · exact covers_bind (covers_takeSome _ _) fun _ => covers_pure ()

theorem covers_fraction : Covers fraction :=
  covers_whenNext (covers_bind (covers_takeSome _ _) fun _ => covers_pure ())

theorem covers_exponent : Covers exponent :=
  covers_whenNext (covers_bind (covers_whenNext (covers_pure ())) fun _ =>
    covers_bind (covers_takeSome _ _) fun _ => covers_pure ())

theorem covers_number : Covers number := by
  refine covers_spelling (covers_bind (covers_whenNext (covers_pure ())) fun _ =>
    covers_bind covers_integer fun _ => covers_bind covers_fraction fun _ =>
      covers_bind covers_exponent fun _ => covers_bind covers_peek fun next => ?_)
  split
  · split
    · exact covers_fail _
    · exact covers_pure ()
  · exact covers_pure ()

/-- A scanner leaves no more than it was given. -/
theorem Covers.length_rest_le {s : Scanner α} (hs : Covers s) (text : List Char) :
    (s text).rest.length ≤ text.length := by
  have := congrArg List.length (hs text)
  simp only [List.length_append] at this
  omega

/-! ### Progress -/

/-- The scanner succeeds only by taking something. -/
def Advances (s : Scanner α) (text : List Char) : Prop :=
  ∀ a, (s text).result = .ok a → (s text).rest.length < text.length

theorem advances_bind_left {s : Scanner α} {f : α → Scanner β} {text : List Char}
    (hs : Advances s text) (hf : ∀ a, Covers (f a)) : Advances (s >>= f) text := by
  intro b
  simp only [bind]
  split
  · rename_i a ha
    intro _
    exact Nat.lt_of_le_of_lt ((hf a).length_rest_le _) (hs a ha)
  · simp

theorem advances_bind_right {s : Scanner α} {f : α → Scanner β} (hs : Covers s)
    (hf : ∀ a text, Advances (f a) text) (text : List Char) : Advances (s >>= f) text := by
  intro b
  simp only [bind]
  split
  · rename_i a _
    intro hb
    exact Nat.lt_of_lt_of_le (hf a _ b hb) (hs.length_rest_le text)
  · simp

theorem advances_take {n : Nat} (hn : n ≠ 0) (c : Char) (rest : List Char) :
    Advances (take n) (c :: rest) := by
  intro a _
  simp only [take, List.length_drop, List.length_cons]
  omega

theorem length_dropWhile_le (p : Char → Bool) (text : List Char) :
    (text.dropWhile p).length ≤ text.length :=
  (covers_takeWhile p).length_rest_le text

theorem advances_takeWhile {p : Char → Bool} {c : Char} (hc : p c = true) (rest : List Char) :
    Advances (takeWhile p) (c :: rest) := by
  intro a _
  have := length_dropWhile_le p rest
  simp only [takeWhile, List.dropWhile_cons, hc, if_true, List.length_cons]
  omega

theorem advances_spelling {s : Scanner α} {text : List Char} (hs : Advances s text) :
    Advances (spelling s) text := by
  intro a ha
  cases h : (s text).result with
  | ok b => exact hs b h
  | error fault => simp [spelling, h, Except.map] at ha

theorem advances_takeSome (p : Char → Bool) (missing : Fault) (text : List Char) :
    Advances (takeSome p missing) text := by
  intro a ha
  cases text with
  | nil => simp [takeSome, bind, peek, fail] at ha
  | cons c rest =>
    by_cases hc : p c = true
    · simpa [takeSome, bind, peek, hc] using advances_takeWhile hc rest a (by
        simpa [takeSome, bind, peek, hc] using ha)
    · simp [takeSome, bind, peek, hc, fail] at ha

theorem decoded_cons (plain : Char → Bool) {c : Char} (hc : c ≠ '\\') (rest : List Char) :
    decoded plain (c :: rest) =
      if plain c then (decoded plain rest).push [c] c else ⟨[], c :: rest, .ok []⟩ := by
  rw [decoded] <;> simp [hc]

theorem advances_decoded {plain : Char → Bool} {c : Char} (hc : c = '\\' ∨ plain c = true)
    (rest : List Char) : Advances (decoded plain) (c :: rest) := by
  intro a ha
  have hle := fun text => (covers_decoded plain).length_rest_le text
  by_cases hb : c = '\\'
  · subst hb
    cases rest with
    | nil => simp [decoded] at ha
    | cons d rest =>
      simp only [decoded] at ha ⊢
      split at ha
      · rename_i hd
        have := hle rest
        simp only [hd, if_true, Scan.push, List.length_cons]
        omega
      · simp at ha
  · have hp : plain c = true := hc.resolve_left hb
    have := hle rest
    simp only [decoded_cons plain hb, hp, if_true, Scan.push, List.length_cons]
    omega

theorem advances_name (missing : Fault) (text : List Char) : Advances (name missing) text := by
  intro a ha
  cases text with
  | nil => simp [name, bind, peek, fail] at ha
  | cons c rest =>
    by_cases hc : isNameStart c = true
    · have hc' : isNameChar c = true := by simp [isNameChar, hc]
      simpa [name, bind, peek, hc] using advances_takeWhile hc' rest a (by
        simpa [name, bind, peek, hc] using ha)
    · simp [name, bind, peek, hc, fail] at ha

theorem advances_identifier (text : List Char) : Advances identifier text :=
  advances_bind_left (advances_name _ text) fun _ => covers_bind covers_qualified fun _ =>
    covers_pure _

theorem advances_behind {s : Scanner (List Char)} (hs : Covers s) (c : Char) (rest : List Char) :
    Advances (behind s) (c :: rest) :=
  advances_bind_left (advances_take Nat.one_ne_zero c rest) fun _ => hs

theorem advances_quoted (c : Char) (rest : List Char) : Advances quoted (c :: rest) :=
  advances_bind_left (advances_take Nat.one_ne_zero c rest) fun _ => by
    refine covers_bind (covers_decoded _) fun text => covers_bind covers_peek fun next => ?_
    split
    · split
      · exact covers_bind (covers_take 1) fun _ => covers_pure text
      · exact covers_fail _
    · exact covers_fail _

theorem advances_integer (text : List Char) : Advances integer text := by
  intro a ha
  cases text with
  | nil => simp [integer, takeSome, bind, peek, fail] at ha
  | cons c rest =>
    by_cases hc : c = '0'
    · simp [integer, bind, peek, hc, take, pure]
    · have : integer (c :: rest) =
          (do let _ ← takeSome isDigit .missingInteger : Scanner Unit) (c :: rest) := by
        simp [integer, bind, peek, hc]
      rw [this] at ha ⊢
      exact advances_bind_left (advances_takeSome _ _ _) (fun _ => covers_pure ()) a ha

theorem advances_number (text : List Char) : Advances number text := by
  refine advances_spelling (advances_bind_right (covers_whenNext (covers_pure ())) (fun _ text =>
    advances_bind_left (advances_integer text) fun _ => covers_bind covers_fraction fun _ =>
      covers_bind covers_exponent fun _ => covers_bind covers_peek fun next => ?_) text)
  split
  · split
    · exact covers_fail _
    · exact covers_pure ()
  · exact covers_pure ()

end Scanner

end MessageFormat
