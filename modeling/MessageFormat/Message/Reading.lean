import MessageFormat.Message.Basic
import MessageFormat.Message.Repetition

/-!
# Reading messages

How a message and its parts are read from tokens.  Blanks may stand between most tokens and must
stand before a directive that follows an operand, before an option, an attribute, and all keys of a
variant but the first.  A reading that fails names the kinds of tokens that could have followed.

The readings of the parts are `Expression.read`, `Markup.read`, `Variant.read` and so on, and
`Message.read` is that of a message; each is accompanied by a lemma that it takes at least one
token.
-/

namespace MessageFormat

/-! ### Literals and operands -/

/-- The kinds that an operand may have. -/
def operandKinds : List TokenKind :=
  [.variableName, .quotedLiteral, .nameLiteral, .numberLiteral]

/-- The kinds that begin a directive. -/
def directiveKinds : List TokenKind := [.functionName, .reservedSigil, .privateSigil]

/-- The kinds that a key may have. -/
def keyKinds : List TokenKind := [.catchAll, .quotedLiteral, .nameLiteral, .numberLiteral]

/-- The kinds that begin a statement or a quoted pattern. -/
def statementKinds : List TokenKind :=
  [.inputKeyword, .localKeyword, .reservedKeyword, .matchKeyword, .patternOpen]

/-- The literal that a token is. -/
def Literal.ofToken? (token : Token) : Option Literal :=
  match token.kind with
  | .quotedLiteral => some (.quoted token.value)
  | .nameLiteral => some (.name token.value)
  | .numberLiteral => some (.number (.ofSource token.value))
  | _ => none

/-- The operand that a token is. -/
def Operand.ofToken? (token : Token) : Option Operand :=
  if token.kind = .variableName then some (.variableName token.value)
  else (Literal.ofToken? token).map .literal

/-- Reads an operand. -/
def Operand.read (tokens : List Token) : Except Mismatch (Operand × List Token) :=
  match tokens with
  | [] => mismatch operandKinds []
  | token :: rest =>
    match Operand.ofToken? token with
    | some operand => .ok (operand, rest)
    | none => mismatch operandKinds (token :: rest)

theorem Operand.length_read_lt {tokens rest : List Token} {operand : Operand}
    (h : Operand.read tokens = .ok (operand, rest)) : rest.length < tokens.length := by
  unfold Operand.read at h
  split at h
  · simp [mismatch] at h
  · split at h
    · simp only [Except.ok.injEq, Prod.mk.injEq] at h
      simp [h.2]
    · simp [mismatch] at h

/-! ### Options and attributes -/

/-- Reads what stands behind the name of an option: an equals sign and a value. -/
def readAssigned (tokens : List Token) : Except Mismatch (Operand × List Token) := do
  let (_, rest) ← expect .equals (skipBlank tokens)
  Operand.read (skipBlank rest)

theorem length_readAssigned_lt {tokens rest : List Token} {operand : Operand}
    (h : readAssigned tokens = .ok (operand, rest)) : rest.length < tokens.length := by
  obtain ⟨⟨_, middle⟩, hequals, hread⟩ := bind_eq_ok_iff.1 h
  have := length_expect_lt hequals
  have := Operand.length_read_lt hread
  have := length_skipBlank_le tokens
  have := length_skipBlank_le middle
  omega

/-- Reads an option behind a separator, if there is one. -/
def NamedOption.readIfAny (tokens : List Token) :
    Except Mismatch (Option (NamedOption × List Token)) :=
  match skipBlank tokens with
  | [] => .ok none
  | token :: rest =>
    if token.kind = .optionName then do
      requireSeparator tokens
      let (value, rest) ← readAssigned rest
      return some (⟨.ofText token.value, value⟩, rest)
    else .ok none

theorem NamedOption.shortens : Shortens NamedOption.readIfAny := by
  intro tokens a rest h
  have := length_skipBlank_le tokens
  unfold NamedOption.readIfAny at h
  split at h
  · simp at h
  · rename_i token behind hskip
    simp only [hskip, List.length_cons] at this
    split at h
    · obtain ⟨_, _, h⟩ := bind_eq_ok_iff.1 h
      obtain ⟨⟨value, last⟩, hassigned, h⟩ := bind_eq_ok_iff.1 h
      simp only [pure, Except.pure, Except.ok.injEq, Option.some.injEq, Prod.mk.injEq] at h
      have := length_readAssigned_lt hassigned
      obtain ⟨_, rfl⟩ := h
      omega
    · simp at h

/-- Reads an attribute behind a separator, if there is one. -/
def Attribute.readIfAny (tokens : List Token) : Except Mismatch (Option (Attribute × List Token)) :=
  match skipBlank tokens with
  | [] => .ok none
  | token :: rest =>
    if token.kind = .attributeName then do
      requireSeparator tokens
      if (skipBlank rest).head?.any (·.kind = .equals) then
        let (value, rest) ← readAssigned rest
        return some (⟨.ofText token.value, some value⟩, rest)
      else return some (⟨.ofText token.value, none⟩, rest)
    else .ok none

theorem Attribute.shortens : Shortens Attribute.readIfAny := by
  intro tokens a rest h
  have := length_skipBlank_le tokens
  unfold Attribute.readIfAny at h
  split at h
  · simp at h
  · rename_i token behind hskip
    simp only [hskip, List.length_cons] at this
    split at h
    · obtain ⟨_, _, h⟩ := bind_eq_ok_iff.1 h
      split at h
      · obtain ⟨⟨value, last⟩, hassigned, h⟩ := bind_eq_ok_iff.1 h
        simp only [pure, Except.pure, Except.ok.injEq, Option.some.injEq, Prod.mk.injEq] at h
        have := length_readAssigned_lt hassigned
        obtain ⟨_, rfl⟩ := h
        omega
      · simp only [pure, Except.pure, Except.ok.injEq, Option.some.injEq, Prod.mk.injEq] at h
        obtain ⟨_, rfl⟩ := h
        omega
    · simp at h

/-! ### Directives -/

/-- Whether a token can belong to a reserved body. -/
def Token.isOfBody (token : Token) : Bool :=
  token.kind == .blank || token.kind == .reservedText || token.kind == .quotedLiteral

/-- The pieces with a text in front, joined to the first piece if that is a text too. -/
def BodyPiece.prepend (text : String) : List BodyPiece → List BodyPiece
  | .text first :: rest => .text (text ++ first) :: rest
  | pieces => .text text :: pieces

/-- The pieces of a reserved body: blanks inside it are text, and blanks at its end are nothing. -/
def BodyPiece.ofTokens : List Token → List BodyPiece
  | [] => []
  | token :: rest =>
    if token.kind = .quotedLiteral then .quoted token.value :: ofTokens rest
    else if token.isBlank && (rest.all Token.isBlank || token.value.isEmpty) then ofTokens rest
    else prepend token.value (ofTokens rest)

/-- Reads a reserved body, which may be empty.  The last run of blanks, if the body ends in one, is
left. -/
def readBody (tokens : List Token) : List BodyPiece × List Token :=
  let body := tokens.takeWhile Token.isOfBody
  let rest := tokens.dropWhile Token.isOfBody
  (BodyPiece.ofTokens (body.dropWhile Token.isBlank),
    match body.getLast? with
    | some last => if last.isBlank then last :: rest else rest
    | none => rest)

theorem length_readBody_le (tokens : List Token) :
    (readBody tokens).2.length ≤ tokens.length := by
  have h : (tokens.takeWhile Token.isOfBody).length + (tokens.dropWhile Token.isOfBody).length =
      tokens.length := by
    rw [← List.length_append, List.takeWhile_append_dropWhile]
  unfold readBody
  dsimp only
  split
  · rename_i last hlast
    -- the run of blanks that is put back was taken from the body
    have : tokens.takeWhile Token.isOfBody ≠ [] := by
      intro hnil
      simp [hnil] at hlast
    have := List.length_pos_iff.2 this
    split
    · simp only [List.length_cons]
      omega
    · omega
  · omega

/-- Reads what stands behind the token that begins a directive. -/
def Directive.readBehind (token : Token) (tokens : List Token) :
    Except Mismatch (Directive × List Token) :=
  match token.kind with
  | .functionName => do
    let (options, rest) ← many NamedOption.readIfAny NamedOption.shortens tokens
    return (.function ⟨.ofText token.value, options⟩, rest)
  | kind =>
    let (body, rest) := readBody tokens
    let directive : ReservedDirective := ⟨token.value.toList.head?.getD '!', body⟩
    .ok (if kind = .privateSigil then .privateUse directive else .reserved directive, rest)

theorem Directive.length_readBehind_le {token : Token} {tokens rest : List Token}
    {directive : Directive} (h : Directive.readBehind token tokens = .ok (directive, rest)) :
    rest.length ≤ tokens.length := by
  unfold Directive.readBehind at h
  split at h
  · obtain ⟨⟨options, last⟩, hmany, h⟩ := bind_eq_ok_iff.1 h
    simp only [pure, Except.pure, Except.ok.injEq, Prod.mk.injEq] at h
    have := length_many_le hmany
    obtain ⟨_, rfl⟩ := h
    exact this
  · have := length_readBody_le tokens
    simp only [Except.ok.injEq, Prod.mk.injEq] at h
    obtain ⟨_, rfl⟩ := h
    exact this

/-! ### Expressions -/

/-- Reads the operand and the directive of an expression, of which one may be absent. -/
def readContent (tokens : List Token) :
    Except Mismatch ((Option Operand × Option Directive) × List Token) :=
  match tokens with
  | [] => mismatch (operandKinds ++ directiveKinds) []
  | token :: rest =>
    match Operand.ofToken? token with
    | some operand =>
      match skipBlank rest with
      | [] => .ok ((some operand, none), rest)
      | next :: behind =>
        if next.kind.beginsDirective then do
          requireSeparator rest
          let (directive, rest) ← Directive.readBehind next behind
          return ((some operand, some directive), rest)
        else .ok ((some operand, none), rest)
    | none =>
      if token.kind.beginsDirective then do
        let (directive, rest) ← Directive.readBehind token rest
        return ((none, some directive), rest)
      else mismatch (operandKinds ++ directiveKinds) (token :: rest)

theorem length_readContent_lt {tokens rest : List Token}
    {content : Option Operand × Option Directive} (h : readContent tokens = .ok (content, rest)) :
    rest.length < tokens.length := by
  unfold readContent at h
  split at h
  · simp [mismatch] at h
  · rename_i token behind
    split at h
    · have := length_skipBlank_le behind
      split at h
      · simp only [Except.ok.injEq, Prod.mk.injEq] at h
        simp [h.2]
      · rename_i next later hskip
        simp only [hskip, List.length_cons] at this
        split at h
        · obtain ⟨_, _, h⟩ := bind_eq_ok_iff.1 h
          obtain ⟨⟨directive, last⟩, hdirective, h⟩ := bind_eq_ok_iff.1 h
          simp only [pure, Except.pure, Except.ok.injEq, Prod.mk.injEq] at h
          have := Directive.length_readBehind_le hdirective
          obtain ⟨_, rfl⟩ := h
          simp only [List.length_cons]
          omega
        · simp only [Except.ok.injEq, Prod.mk.injEq] at h
          simp [h.2]
    · split at h
      · obtain ⟨⟨directive, last⟩, hdirective, h⟩ := bind_eq_ok_iff.1 h
        simp only [pure, Except.pure, Except.ok.injEq, Prod.mk.injEq] at h
        have := Directive.length_readBehind_le hdirective
        obtain ⟨_, rfl⟩ := h
        simp only [List.length_cons]
        omega
      · simp [mismatch] at h

/-- The kinds that could follow a directive in an expression. -/
def kindsBehind : Option Directive → List TokenKind
  | none => directiveKinds
  | some (.function _) => [.optionName]
  | some _ => []

/-- Reads an expression. -/
def Expression.read (tokens : List Token) : Except Mismatch (Expression × List Token) := do
  let (_, rest) ← expect .expressionOpen tokens
  let ((operand, directive), rest) ← readContent (skipBlank rest)
  let (attributes, rest) ← many Attribute.readIfAny Attribute.shortens rest
  match skipBlank rest with
  | [] => mismatch (kindsBehind directive ++ [.attributeName, .expressionClose]) []
  | token :: rest =>
    if token.kind = .expressionClose then return (⟨operand, directive, attributes⟩, rest)
    else mismatch (kindsBehind directive ++ [.attributeName, .expressionClose]) (token :: rest)

theorem Expression.length_read_lt {tokens rest : List Token} {expression : Expression}
    (h : Expression.read tokens = .ok (expression, rest)) : rest.length < tokens.length := by
  obtain ⟨⟨_, inside⟩, hopen, h⟩ := bind_eq_ok_iff.1 h
  obtain ⟨⟨⟨operand, directive⟩, behind⟩, hcontent, h⟩ := bind_eq_ok_iff.1 h
  obtain ⟨⟨attributes, last⟩, hattributes, h⟩ := bind_eq_ok_iff.1 h
  have := length_expect_lt hopen
  have := length_skipBlank_le inside
  have := length_readContent_lt hcontent
  have := length_many_le hattributes
  have := length_skipBlank_le last
  dsimp only at h
  split at h
  · simp [mismatch] at h
  · rename_i token close hskip
    simp only [hskip, List.length_cons] at this
    split at h
    · simp only [pure, Except.pure, Except.ok.injEq, Prod.mk.injEq] at h
      obtain ⟨_, rfl⟩ := h
      omega
    · simp [mismatch] at h

/-- Reads an expression behind blanks, if there is one. -/
def Expression.readIfAny (tokens : List Token) :
    Except Mismatch (Option (Expression × List Token)) :=
  if (skipBlank tokens).head?.any (·.kind = .expressionOpen) then
    (Expression.read (skipBlank tokens)).map some
  else .ok none

theorem Expression.shortens : Shortens Expression.readIfAny := by
  intro tokens expression rest h
  have := length_skipBlank_le tokens
  unfold Expression.readIfAny at h
  split at h
  · cases hread : Expression.read (skipBlank tokens) with
    | error e => simp [hread, Except.map] at h
    | ok pair =>
      simp only [hread, Except.map, Except.ok.injEq, Option.some.injEq] at h
      subst h
      have := Expression.length_read_lt hread
      omega
  · simp at h

/-! ### Markup -/

/-- Whether a token begins markup behind an opening brace. -/
def TokenKind.beginsMarkup (kind : TokenKind) : Bool := kind == .markupOpen || kind == .markupClose

/-- Reads the end of markup: a closing brace, behind a slash if the markup may stand alone. -/
def readMarkupEnd (mayStandAlone : Bool) (tokens : List Token) :
    Except Mismatch (Bool × List Token) :=
  let expected (slash : Bool) : List TokenKind :=
    [.optionName, .attributeName] ++ (if slash then [.selfClose] else []) ++ [.expressionClose]
  match tokens with
  | [] => mismatch (expected mayStandAlone) []
  | token :: rest =>
    if mayStandAlone && token.kind == .selfClose then
      match rest with
      | [] => mismatch (expected false) []
      | close :: behind =>
        if close.kind = .expressionClose then .ok (true, behind)
        else mismatch (expected false) (close :: behind)
    else if token.kind = .expressionClose then .ok (false, rest)
    else mismatch (expected mayStandAlone) (token :: rest)

theorem length_readMarkupEnd_lt {mayStandAlone standsAlone : Bool} {tokens rest : List Token}
    (h : readMarkupEnd mayStandAlone tokens = .ok (standsAlone, rest)) :
    rest.length < tokens.length := by
  unfold readMarkupEnd at h
  dsimp only at h
  split at h
  · simp [mismatch] at h
  · split at h
    · split at h
      · simp [mismatch] at h
      · split at h
        · simp only [Except.ok.injEq, Prod.mk.injEq] at h
          simp only [h.2, List.length_cons]
          omega
        · simp [mismatch] at h
    · split at h
      · simp only [Except.ok.injEq, Prod.mk.injEq] at h
        simp [h.2]
      · simp [mismatch] at h

/-- Reads markup. -/
def Markup.read (tokens : List Token) : Except Mismatch (Markup × List Token) := do
  let (_, rest) ← expect .expressionOpen tokens
  match skipBlank rest with
  | [] => mismatch [.markupOpen, .markupClose] []
  | token :: rest =>
    if token.kind.beginsMarkup then do
      let opens := token.kind == .markupOpen
      let (options, rest) ← many NamedOption.readIfAny NamedOption.shortens rest
      let (attributes, rest) ← many Attribute.readIfAny Attribute.shortens rest
      let (standsAlone, rest) ← readMarkupEnd opens (skipBlank rest)
      let kind := if standsAlone then .standalone else if opens then .opening else .closing
      return (⟨kind, .ofText token.value, options, attributes⟩, rest)
    else mismatch [.markupOpen, .markupClose] (token :: rest)

theorem Markup.length_read_lt {tokens rest : List Token} {markup : Markup}
    (h : Markup.read tokens = .ok (markup, rest)) : rest.length < tokens.length := by
  obtain ⟨⟨_, inside⟩, hopen, h⟩ := bind_eq_ok_iff.1 h
  have := length_expect_lt hopen
  have := length_skipBlank_le inside
  dsimp only at h
  split at h
  · simp [mismatch] at h
  · rename_i token behind hskip
    simp only [hskip, List.length_cons] at this
    split at h
    · obtain ⟨⟨options, later⟩, hoptions, h⟩ := bind_eq_ok_iff.1 h
      obtain ⟨⟨attributes, last⟩, hattributes, h⟩ := bind_eq_ok_iff.1 h
      obtain ⟨⟨standsAlone, close⟩, hend, h⟩ := bind_eq_ok_iff.1 h
      have := length_many_le hoptions
      have := length_many_le hattributes
      have := length_skipBlank_le last
      have := length_readMarkupEnd_lt hend
      dsimp only at *
      simp only [pure, Except.pure, Except.ok.injEq, Prod.mk.injEq] at h
      obtain ⟨_, rfl⟩ := h
      omega
    · simp [mismatch] at h

/-! ### Patterns -/

/-- Reads a placeholder: markup if its first token behind the brace begins markup, and otherwise an
expression. -/
def PatternPart.readPlaceholder (tokens : List Token) :
    Except Mismatch (PatternPart × List Token) :=
  if ((tokens.drop 1).dropWhile Token.isBlank).head?.any (·.kind.beginsMarkup) then do
    let (m, rest) ← Markup.read tokens
    return (.markup m, rest)
  else do
    let (e, rest) ← Expression.read tokens
    return (.expression e, rest)

theorem PatternPart.length_readPlaceholder_lt {tokens rest : List Token} {part : PatternPart}
    (h : PatternPart.readPlaceholder tokens = .ok (part, rest)) : rest.length < tokens.length := by
  unfold PatternPart.readPlaceholder at h
  split at h
  · obtain ⟨⟨markup, last⟩, hread, h⟩ := bind_eq_ok_iff.1 h
    simp only [pure, Except.pure, Except.ok.injEq, Prod.mk.injEq] at h
    obtain ⟨_, rfl⟩ := h
    exact Markup.length_read_lt hread
  · obtain ⟨⟨expression, last⟩, hread, h⟩ := bind_eq_ok_iff.1 h
    simp only [pure, Except.pure, Except.ok.injEq, Prod.mk.injEq] at h
    obtain ⟨_, rfl⟩ := h
    exact Expression.length_read_lt hread

/-- Reads a part of a pattern that ends before a token of the kind `closing`, or at the end of the
tokens if that is the end of the input. -/
def PatternPart.readIfAny (closing : TokenKind) (tokens : List Token) :
    Except Mismatch (Option (PatternPart × List Token)) :=
  match tokens with
  | [] =>
    if closing = .endOfInput then .ok none else mismatch [.text, .expressionOpen, closing] []
  | token :: rest =>
    if token.kind = .text then .ok (some (.text token.value, rest))
    else if token.kind = .expressionOpen then
      (PatternPart.readPlaceholder (token :: rest)).map some
    else if token.kind = closing then .ok none
    else mismatch [.text, .expressionOpen, closing] (token :: rest)

theorem PatternPart.shortens (closing : TokenKind) : Shortens (PatternPart.readIfAny closing) := by
  intro tokens part rest h
  unfold PatternPart.readIfAny at h
  split at h
  · split at h <;> simp [mismatch] at h
  · rename_i token behind
    split at h
    · simp only [Except.ok.injEq, Option.some.injEq, Prod.mk.injEq] at h
      simp [h.2]
    · split at h
      · cases hread : PatternPart.readPlaceholder (token :: behind) with
        | error e => simp [hread, Except.map] at h
        | ok pair =>
          simp only [hread, Except.map, Except.ok.injEq, Option.some.injEq] at h
          subst h
          exact PatternPart.length_readPlaceholder_lt hread
      · split at h <;> simp [mismatch] at h

/-- Reads a pattern up to a token of the kind `closing`. -/
def Pattern.read (closing : TokenKind) (tokens : List Token) :
    Except Mismatch (Pattern × List Token) :=
  many (PatternPart.readIfAny closing) (PatternPart.shortens closing) tokens

/-- Reads a pattern between double braces. -/
def Pattern.readQuoted (tokens : List Token) : Except Mismatch (Pattern × List Token) := do
  let (_, rest) ← expect .patternOpen tokens
  let (pattern, rest) ← Pattern.read .patternClose rest
  let (_, rest) ← expect .patternClose rest
  return (pattern, rest)

theorem Pattern.length_readQuoted_lt {tokens rest : List Token} {pattern : Pattern}
    (h : Pattern.readQuoted tokens = .ok (pattern, rest)) : rest.length < tokens.length := by
  obtain ⟨⟨_, inside⟩, hopen, h⟩ := bind_eq_ok_iff.1 h
  obtain ⟨⟨parts, behind⟩, hread, h⟩ := bind_eq_ok_iff.1 h
  obtain ⟨⟨_, last⟩, hclose, h⟩ := bind_eq_ok_iff.1 h
  have := length_expect_lt hopen
  have := length_many_le hread
  have := length_expect_lt hclose
  simp only [pure, Except.pure, Except.ok.injEq, Prod.mk.injEq] at h
  obtain ⟨_, rfl⟩ := h
  omega

/-! ### Matchers -/

/-- The key that a token is. -/
def VariantKey.ofToken? (token : Token) : Option VariantKey :=
  if token.kind = .catchAll then some .catchAll else (Literal.ofToken? token).map .literal

/-- Reads a key. -/
def VariantKey.read (tokens : List Token) : Except Mismatch (VariantKey × List Token) :=
  match tokens with
  | [] => mismatch keyKinds []
  | token :: rest =>
    match VariantKey.ofToken? token with
    | some key => .ok (key, rest)
    | none => mismatch keyKinds (token :: rest)

theorem VariantKey.length_read_lt {tokens rest : List Token} {key : VariantKey}
    (h : VariantKey.read tokens = .ok (key, rest)) : rest.length < tokens.length := by
  unfold VariantKey.read at h
  split at h
  · simp [mismatch] at h
  · split at h
    · simp only [Except.ok.injEq, Prod.mk.injEq] at h
      simp [h.2]
    · simp [mismatch] at h

/-- Reads a further key behind a separator, unless the pattern of the variant follows. -/
def VariantKey.readIfAny (tokens : List Token) :
    Except Mismatch (Option (VariantKey × List Token)) :=
  match skipBlank tokens with
  | [] => mismatch (keyKinds ++ [.patternOpen]) []
  | token :: rest =>
    match VariantKey.ofToken? token with
    | some key => do
      requireSeparator tokens
      return some (key, rest)
    | none =>
      if token.kind = .patternOpen then .ok none
      else mismatch (keyKinds ++ [.patternOpen]) (token :: rest)

theorem VariantKey.shortens : Shortens VariantKey.readIfAny := by
  intro tokens key rest h
  have := length_skipBlank_le tokens
  unfold VariantKey.readIfAny at h
  split at h
  · simp [mismatch] at h
  · rename_i token behind hskip
    simp only [hskip, List.length_cons] at this
    split at h
    · obtain ⟨_, _, h⟩ := bind_eq_ok_iff.1 h
      simp only [pure, Except.pure, Except.ok.injEq, Option.some.injEq, Prod.mk.injEq] at h
      obtain ⟨_, rfl⟩ := h
      omega
    · split at h <;> simp [mismatch] at h

/-- Reads a variant. -/
def Variant.read (tokens : List Token) : Except Mismatch (Variant × List Token) := do
  let (key, rest) ← VariantKey.read tokens
  let (keys, rest) ← many VariantKey.readIfAny VariantKey.shortens rest
  let (pattern, rest) ← Pattern.readQuoted (skipBlank rest)
  return (⟨key :: keys, pattern⟩, rest)

/-- Reads a variant behind blanks, unless the tokens are at their end. -/
def Variant.readIfAny (tokens : List Token) : Except Mismatch (Option (Variant × List Token)) :=
  if (skipBlank tokens).isEmpty then .ok none
  else (Variant.read (skipBlank tokens)).map some

theorem Variant.shortens : Shortens Variant.readIfAny := by
  intro tokens a rest h
  have := length_skipBlank_le tokens
  unfold Variant.readIfAny at h
  split at h
  · simp at h
  · cases hread : Variant.read (skipBlank tokens) with
    | error e => simp [hread, Except.map] at h
    | ok pair =>
      simp only [hread, Except.map, Except.ok.injEq, Option.some.injEq] at h
      subst h
      obtain ⟨⟨key, behind⟩, hkey, h⟩ := bind_eq_ok_iff.1 hread
      obtain ⟨⟨keys, later⟩, hkeys, h⟩ := bind_eq_ok_iff.1 h
      obtain ⟨⟨pattern, last⟩, hpattern, h⟩ := bind_eq_ok_iff.1 h
      have := VariantKey.length_read_lt hkey
      have := length_many_le hkeys
      have := length_skipBlank_le later
      have := Pattern.length_readQuoted_lt hpattern
      simp only [pure, Except.pure, Except.ok.injEq, Prod.mk.injEq] at h
      obtain ⟨_, rfl⟩ := h
      omega

/-- Reads what stands behind the keyword of a matcher: selectors and variants, at least one of
each. -/
def Matcher.readBehind (tokens : List Token) : Except Mismatch (Matcher × List Token) := do
  let (selectors, rest) ← many Expression.readIfAny Expression.shortens tokens
  if selectors.isEmpty then mismatch [.expressionOpen] rest
  let (variants, rest) ← many Variant.readIfAny Variant.shortens rest
  if variants.isEmpty then mismatch keyKinds (skipBlank rest)
  return (⟨selectors, variants⟩, rest)

/-! ### Declarations -/

/-- Reads what stands behind the keyword of an input declaration: an expression whose operand is a
variable. -/
def Declaration.readInput (tokens : List Token) : Except Mismatch (Declaration × List Token) := do
  let (_, inside) ← expect .expressionOpen (skipBlank tokens)
  let (_, _) ← expect .variableName (inside.dropWhile Token.isBlank)
  let (expression, rest) ← Expression.read (skipBlank tokens)
  return (.input expression, rest)

/-- Reads what stands behind the keyword of a local declaration: a variable, an equals sign and an
expression. -/
def Declaration.readAssign (tokens : List Token) : Except Mismatch (Declaration × List Token) := do
  requireSeparator tokens
  let (variableToken, rest) ← expect .variableName (skipBlank tokens)
  let (_, rest) ← expect .equals (skipBlank rest)
  let (expression, rest) ← Expression.read (skipBlank rest)
  return (.assign variableToken.value expression, rest)

/-- Reads what stands behind the keyword of a reserved statement: a body and at least one
expression. -/
def Declaration.readReserved (keyword : String) (tokens : List Token) :
    Except Mismatch (Declaration × List Token) := do
  let (expressions, rest) ← many Expression.readIfAny Expression.shortens (readBody tokens).2
  if expressions.isEmpty then mismatch [.expressionOpen] rest
  return (.reserved ⟨keyword, (readBody tokens).1, expressions⟩, rest)

/-- Reads a declaration behind blanks, if there is one. -/
def Declaration.readIfAny (tokens : List Token) :
    Except Mismatch (Option (Declaration × List Token)) :=
  match skipBlank tokens with
  | [] => .ok none
  | token :: rest =>
    match token.kind with
    | .inputKeyword => (Declaration.readInput rest).map some
    | .localKeyword => (Declaration.readAssign rest).map some
    | .reservedKeyword => (Declaration.readReserved token.value rest).map some
    | _ => .ok none

theorem Declaration.length_readInput_lt {tokens rest : List Token} {declaration : Declaration}
    (h : Declaration.readInput tokens = .ok (declaration, rest)) : rest.length < tokens.length := by
  obtain ⟨⟨_, inside⟩, _, h⟩ := bind_eq_ok_iff.1 h
  obtain ⟨⟨_, _⟩, _, h⟩ := bind_eq_ok_iff.1 h
  obtain ⟨⟨expression, last⟩, hread, h⟩ := bind_eq_ok_iff.1 h
  have := length_skipBlank_le tokens
  have := Expression.length_read_lt hread
  simp only [pure, Except.pure, Except.ok.injEq, Prod.mk.injEq] at h
  obtain ⟨_, rfl⟩ := h
  omega

theorem Declaration.length_readAssign_lt {tokens rest : List Token} {declaration : Declaration}
    (h : Declaration.readAssign tokens = .ok (declaration, rest)) :
    rest.length < tokens.length := by
  obtain ⟨_, _, h⟩ := bind_eq_ok_iff.1 h
  obtain ⟨⟨_, behind⟩, hvariable, h⟩ := bind_eq_ok_iff.1 h
  obtain ⟨⟨_, later⟩, hequals, h⟩ := bind_eq_ok_iff.1 h
  obtain ⟨⟨expression, last⟩, hread, h⟩ := bind_eq_ok_iff.1 h
  have := length_skipBlank_le tokens
  have := length_expect_lt hvariable
  have := length_skipBlank_le behind
  have := length_expect_lt hequals
  have := length_skipBlank_le later
  have := Expression.length_read_lt hread
  simp only [pure, Except.pure, Except.ok.injEq, Prod.mk.injEq] at h
  obtain ⟨_, rfl⟩ := h
  omega

theorem Declaration.length_readReserved_le {keyword : String} {tokens rest : List Token}
    {declaration : Declaration}
    (h : Declaration.readReserved keyword tokens = .ok (declaration, rest)) :
    rest.length ≤ tokens.length := by
  have := length_readBody_le tokens
  obtain ⟨⟨expressions, last⟩, hmany, h⟩ := bind_eq_ok_iff.1 h
  have := length_many_le hmany
  dsimp only at h
  split at h
  · simp [mismatch, bind, Except.bind] at h
  · simp only [pure, Except.pure, Except.ok.injEq, Prod.mk.injEq] at h
    obtain ⟨_, rfl⟩ := h
    omega

theorem Declaration.shortens : Shortens Declaration.readIfAny := by
  intro tokens declaration rest h
  have := length_skipBlank_le tokens
  unfold Declaration.readIfAny at h
  split at h
  · simp at h
  · rename_i token behind hskip
    simp only [hskip, List.length_cons] at this
    split at h
    · cases hread : Declaration.readInput behind with
      | error e => simp [hread, Except.map] at h
      | ok pair =>
        simp only [hread, Except.map, Except.ok.injEq, Option.some.injEq] at h
        subst h
        have := Declaration.length_readInput_lt hread
        omega
    · cases hread : Declaration.readAssign behind with
      | error e => simp [hread, Except.map] at h
      | ok pair =>
        simp only [hread, Except.map, Except.ok.injEq, Option.some.injEq] at h
        subst h
        have := Declaration.length_readAssign_lt hread
        omega
    · cases hread : Declaration.readReserved token.value behind with
      | error e => simp [hread, Except.map] at h
      | ok pair =>
        simp only [hread, Except.map, Except.ok.injEq, Option.some.injEq] at h
        subst h
        have := Declaration.length_readReserved_le hread
        omega
    · simp at h

/-! ### Messages -/

/-- Reads the body of a complex message. -/
def MessageBody.read (tokens : List Token) : Except Mismatch (MessageBody × List Token) :=
  match tokens with
  | [] => mismatch statementKinds []
  | token :: rest =>
    match token.kind with
    | .matchKeyword => do
      let (m, rest) ← Matcher.readBehind rest
      return (.matcher m, rest)
    | .patternOpen => do
      let (p, rest) ← Pattern.readQuoted (token :: rest)
      return (.pattern p, rest)
    | _ => mismatch statementKinds (token :: rest)

/-- Whether the tokens begin a complex message: with a keyword or a quoted pattern, blanks aside. -/
def beginsComplexMessage (tokens : List Token) : Bool :=
  (tokens.dropWhile Token.isBlank).head?.any fun token =>
    token.kind.isKeyword || token.kind == .patternOpen

/-- Reads a message from all of the tokens, without the end of the input. -/
def Message.read (tokens : List Token) : Except Mismatch Message :=
  if beginsComplexMessage tokens then do
    let (declarations, rest) ← many Declaration.readIfAny Declaration.shortens tokens
    let (body, rest) ← MessageBody.read (skipBlank rest)
    expectEnd (skipBlank rest)
    return .complex declarations body
  else do
    let (pattern, rest) ← Pattern.read .endOfInput tokens
    expectEnd rest
    return .simple pattern

end MessageFormat
