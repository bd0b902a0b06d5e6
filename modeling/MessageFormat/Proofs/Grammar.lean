import MessageFormat.Message.Reading

/-!
# The grammar of messages

Which tokens derive which message, one relation for each production.  Tokens may be set apart in two
ways: a *separator* is a run of blanks with a space in it, and a *gap* is any run of blanks, or
nothing.

* `Expression.Derives`, `Markup.Derives`, `Pattern.Derives` : placeholders and patterns;
* `Declaration.Derives`, `Matcher.Derives` : the statements of complex messages;
* `Message.Derives` : messages.
-/

namespace MessageFormat

variable {α : Type}

/-! ### Gaps and repetitions -/

/-- A run of blanks, or nothing. -/
inductive Gap : List Token → Prop where
  /-- Nothing. -/
  | nothing : Gap []
  /-- A run of blanks. -/
  | blank {token : Token} (h : token.isBlank = true) : Gap [token]

/-- A run of blanks with a space in it. -/
inductive Separator : List Token → Prop where
  /-- It is one token. -/
  | space {token : Token} (h : token.isSeparator = true) : Separator [token]

/-- An item behind a gap or a separator. -/
inductive Behind (gap : List Token → Prop) (item : List Token → α → Prop) :
    List Token → α → Prop where
  /-- The gap, and then the item. -/
  | intro {front tokens : List Token} {a : α} (hgap : gap front) (h : item tokens a) :
      Behind gap item (front ++ tokens) a

/-- An item before a gap. -/
inductive Before (item : List Token → α → Prop) (gap : List Token → Prop) :
    List Token → α → Prop where
  /-- The item, and then the gap. -/
  | intro {tokens rear : List Token} {a : α} (h : item tokens a) (hgap : gap rear) :
      Before item gap (tokens ++ rear) a

/-- Any number of items, one behind the other. -/
inductive Repeated (item : List Token → α → Prop) : List Token → List α → Prop where
  /-- No items. -/
  | nil : Repeated item [] []
  /-- An item, and then further ones. -/
  | cons {front tokens : List Token} {a : α} {as : List α} (h : item front a)
      (later : Repeated item tokens as) : Repeated item (front ++ tokens) (a :: as)

/-! ### Literals, operands and keys -/

/-- The tokens of a literal. -/
inductive Literal.Derives : List Token → Literal → Prop where
  /-- A text between bars. -/
  | quoted {token : Token} (h : token.kind = .quotedLiteral) :
      Derives [token] (.quoted token.value)
  /-- A bare name. -/
  | name {token : Token} (h : token.kind = .nameLiteral) : Derives [token] (.name token.value)
  /-- A number. -/
  | number {token : Token} (h : token.kind = .numberLiteral) :
      Derives [token] (.number (.ofSource token.value))

/-- The tokens of an operand, or of the value of an option or an attribute. -/
inductive Operand.Derives : List Token → Operand → Prop where
  /-- A literal. -/
  | literal {tokens : List Token} {l : Literal} (h : Literal.Derives tokens l) :
      Derives tokens (.literal l)
  /-- A variable. -/
  | variableName {token : Token} (h : token.kind = .variableName) :
      Derives [token] (.variableName token.value)

/-- The tokens of a key. -/
inductive VariantKey.Derives : List Token → VariantKey → Prop where
  /-- A literal. -/
  | literal {tokens : List Token} {l : Literal} (h : Literal.Derives tokens l) :
      Derives tokens (.literal l)
  /-- An asterisk. -/
  | catchAll {token : Token} (h : token.kind = .catchAll) : Derives [token] .catchAll

/-! ### Options and attributes -/

/-- The tokens behind the name of an option: an equals sign and a value. -/
inductive Assigned : List Token → Operand → Prop where
  /-- There may be gaps around the equals sign. -/
  | intro {before behind tokens : List Token} {equals : Token} {value : Operand}
      (hbefore : Gap before) (hequals : equals.kind = .equals) (hbehind : Gap behind)
      (h : Operand.Derives tokens value) :
      Assigned (before ++ equals :: (behind ++ tokens)) value

/-- The tokens of an option. -/
inductive NamedOption.Derives : List Token → NamedOption → Prop where
  /-- Its name and its value. -/
  | intro {name : Token} {tokens : List Token} {value : Operand}
      (hname : name.kind = .optionName) (h : Assigned tokens value) :
      Derives (name :: tokens) ⟨.ofText name.value, value⟩

/-- The tokens of an attribute. -/
inductive Attribute.Derives : List Token → Attribute → Prop where
  /-- Only its name. -/
  | bare {name : Token} (hname : name.kind = .attributeName) :
      Derives [name] ⟨.ofText name.value, none⟩
  /-- Its name and its value. -/
  | assigned {name : Token} {tokens : List Token} {value : Operand}
      (hname : name.kind = .attributeName) (h : Assigned tokens value) :
      Derives (name :: tokens) ⟨.ofText name.value, some value⟩

/-- The tokens of options, each behind a separator. -/
def NamedOptions : List Token → List NamedOption → Prop :=
  Repeated (Behind Separator NamedOption.Derives)

/-- The tokens of attributes, each behind a separator. -/
def Attributes : List Token → List Attribute → Prop :=
  Repeated (Behind Separator Attribute.Derives)

/-! ### Directives -/

/-- Whether a token of a reserved body is text: blanks inside the body are. -/
def Token.isBodyText (token : Token) : Bool := token.isBlank || token.kind == .reservedText

/-- The tokens of the pieces of a reserved body.  Text goes as far as there is any. -/
inductive BodyPieces : List Token → List BodyPiece → Prop where
  /-- No pieces. -/
  | nil : BodyPieces [] []
  /-- A text between bars. -/
  | quoted {token : Token} {tokens : List Token} {pieces : List BodyPiece}
      (h : token.kind = .quotedLiteral) (later : BodyPieces tokens pieces) :
      BodyPieces (token :: tokens) (.quoted token.value :: pieces)
  /-- Text and blanks. -/
  | text {run tokens : List Token} {pieces : List BodyPiece} (hne : run ≠ [])
      (hrun : ∀ token ∈ run, token.isBodyText = true)
      (hstop : ∀ token ∈ tokens.head?, token.isBodyText = false)
      (later : BodyPieces tokens pieces) :
      BodyPieces (run ++ tokens) (.text (String.join (run.map Token.value)) :: pieces)

/-- The tokens of a reserved body: nothing, or pieces behind a gap, with no blanks at their ends. -/
inductive ReservedBody : List Token → List BodyPiece → Prop where
  /-- Nothing. -/
  | nothing : ReservedBody [] []
  /-- Pieces behind a gap. -/
  | pieces {gap tokens : List Token} {pieces : List BodyPiece} (hgap : Gap gap) (hne : tokens ≠ [])
      (hhead : ∀ token ∈ tokens.head?, token.isBlank = false)
      (hlast : ∀ token ∈ tokens.getLast?, token.isBlank = false) (h : BodyPieces tokens pieces) :
      ReservedBody (gap ++ tokens) pieces

/-- The tokens of a directive. -/
inductive Directive.Derives : List Token → Directive → Prop where
  /-- A call of a function. -/
  | function {name : Token} {tokens : List Token} {options : List NamedOption}
      (hname : name.kind = .functionName) (hoptions : NamedOptions tokens options) :
      Derives (name :: tokens) (.function ⟨.ofText name.value, options⟩)
  /-- A reserved directive. -/
  | reserved {token : Token} {tokens : List Token} {sigil : Char} {body : List BodyPiece}
      (htoken : token.kind = .reservedSigil) (hsigil : token.value = String.singleton sigil)
      (hbody : ReservedBody tokens body) :
      Derives (token :: tokens) (.reserved ⟨sigil, body⟩)
  /-- A private-use directive. -/
  | privateUse {token : Token} {tokens : List Token} {sigil : Char} {body : List BodyPiece}
      (htoken : token.kind = .privateSigil) (hsigil : token.value = String.singleton sigil)
      (hbody : ReservedBody tokens body) :
      Derives (token :: tokens) (.privateUse ⟨sigil, body⟩)

/-! ### Expressions and markup -/

/-- The tokens of what an expression is about: an operand, a directive, or both. -/
inductive Content : List Token → Option Operand → Option Directive → Prop where
  /-- An operand alone. -/
  | operand {tokens : List Token} {operand : Operand} (h : Operand.Derives tokens operand) :
      Content tokens (some operand) none
  /-- A directive alone. -/
  | directive {tokens : List Token} {directive : Directive}
      (h : Directive.Derives tokens directive) : Content tokens none (some directive)
  /-- An operand and, behind a separator, a directive. -/
  | both {front tokens : List Token} {operand : Operand} {directive : Directive}
      (hoperand : Operand.Derives front operand)
      (h : Behind Separator Directive.Derives tokens directive) :
      Content (front ++ tokens) (some operand) (some directive)

/-- The tokens of an expression. -/
inductive Expression.Derives : List Token → Expression → Prop where
  /-- Between braces, its content and its attributes. -/
  | intro {opening closing : Token} {gap content rear final : List Token} {operand : Option Operand}
      {directive : Option Directive} {attributes : List Attribute}
      (hopening : opening.kind = .expressionOpen) (hgap : Gap gap)
      (hcontent : Content content operand directive) (hattributes : Attributes rear attributes)
      (hfinal : Gap final) (hclosing : closing.kind = .expressionClose) :
      Derives (opening :: (gap ++ (content ++ (rear ++ (final ++ [closing])))))
        ⟨operand, directive, attributes⟩

/-- The tokens at the end of markup that begins with a token of a kind. -/
inductive MarkupEnd : TokenKind → List Token → MarkupKind → Prop where
  /-- Markup that opens. -/
  | opening {closing : Token} (h : closing.kind = .expressionClose) :
      MarkupEnd .markupOpen [closing] .opening
  /-- Markup that stands alone. -/
  | standalone {slash closing : Token} (hslash : slash.kind = .selfClose)
      (h : closing.kind = .expressionClose) : MarkupEnd .markupOpen [slash, closing] .standalone
  /-- Markup that closes. -/
  | closing {closing : Token} (h : closing.kind = .expressionClose) :
      MarkupEnd .markupClose [closing] .closing

/-- The tokens of markup. -/
inductive Markup.Derives : List Token → Markup → Prop where
  /-- Between braces, its name, its options and its attributes. -/
  | intro {opening name : Token} {gap front rear final ending : List Token} {kind : MarkupKind}
      {options : List NamedOption} {attributes : List Attribute}
      (hopening : opening.kind = .expressionOpen) (hgap : Gap gap)
      (hoptions : NamedOptions front options) (hattributes : Attributes rear attributes)
      (hfinal : Gap final) (hending : MarkupEnd name.kind ending kind) :
      Derives (opening :: (gap ++ name :: (front ++ (rear ++ (final ++ ending)))))
        ⟨kind, .ofText name.value, options, attributes⟩

/-! ### Patterns -/

/-- The tokens of a part of a pattern. -/
inductive PatternPart.Derives : List Token → PatternPart → Prop where
  /-- Text. -/
  | text {token : Token} (h : token.kind = .text) : Derives [token] (.text token.value)
  /-- A placeholder for a value. -/
  | expression {tokens : List Token} {e : Expression} (h : Expression.Derives tokens e) :
      Derives tokens (.expression e)
  /-- A placeholder for something that is no text. -/
  | markup {tokens : List Token} {m : Markup} (h : Markup.Derives tokens m) :
      Derives tokens (.markup m)

/-- The tokens of a pattern. -/
def Pattern.Derives : List Token → Pattern → Prop := Repeated PatternPart.Derives

/-- The tokens of a pattern between double braces. -/
inductive Pattern.DerivesQuoted : List Token → Pattern → Prop where
  /-- The braces around the pattern. -/
  | intro {opening closing : Token} {tokens : List Token} {pattern : Pattern}
      (hopening : opening.kind = .patternOpen) (h : Pattern.Derives tokens pattern)
      (hclosing : closing.kind = .patternClose) :
      DerivesQuoted (opening :: (tokens ++ [closing])) pattern

/-! ### Statements -/

/-- The tokens of a variant. -/
inductive Variant.Derives : List Token → Variant → Prop where
  /-- Keys, with separators between them, and a pattern. -/
  | intro {front further gap tokens : List Token} {key : VariantKey} {keys : List VariantKey}
      {pattern : Pattern} (hkey : VariantKey.Derives front key)
      (hkeys : Repeated (Behind Separator VariantKey.Derives) further keys) (hgap : Gap gap)
      (hpattern : Pattern.DerivesQuoted tokens pattern) :
      Derives (front ++ (further ++ (gap ++ tokens))) ⟨key :: keys, pattern⟩

/-- The tokens of a matcher. -/
inductive Matcher.Derives : List Token → Matcher → Prop where
  /-- Its keyword, at least one selector and at least one variant. -/
  | intro {keyword : Token} {front rear : List Token} {selectors : List Expression}
      {variants : List Variant} (hkeyword : keyword.kind = .matchKeyword)
      (hselectors : Repeated (Behind Gap Expression.Derives) front selectors)
      (hselected : selectors ≠ [])
      (hvariants : Repeated (Behind Gap Variant.Derives) rear variants) (hvaried : variants ≠ []) :
      Derives (keyword :: (front ++ rear)) ⟨selectors, variants⟩

/-- The tokens of a declaration. -/
inductive Declaration.Derives : List Token → Declaration → Prop where
  /-- An input declaration: an expression with a variable for an operand. -/
  | input {keyword : Token} {gap tokens : List Token} {e : Expression} {name : String}
      (hkeyword : keyword.kind = .inputKeyword) (hgap : Gap gap) (h : Expression.Derives tokens e)
      (hoperand : e.operand = some (.variableName name)) :
      Derives (keyword :: (gap ++ tokens)) (.input e)
  /-- A local declaration: a variable, an equals sign and an expression. -/
  | assign {keyword name equals : Token} {separator before behind tokens : List Token}
      {e : Expression} (hkeyword : keyword.kind = .localKeyword) (hseparator : Separator separator)
      (hname : name.kind = .variableName) (hbefore : Gap before) (hequals : equals.kind = .equals)
      (hbehind : Gap behind) (h : Expression.Derives tokens e) :
      Derives (keyword :: (separator ++ name :: (before ++ equals :: (behind ++ tokens))))
        (.assign name.value e)
  /-- A reserved statement: a body and at least one expression. -/
  | reserved {keyword : Token} {front rear : List Token} {body : List BodyPiece}
      {expressions : List Expression} (hkeyword : keyword.kind = .reservedKeyword)
      (hbody : ReservedBody front body)
      (hexpressions : Repeated (Behind Gap Expression.Derives) rear expressions)
      (hne : expressions ≠ []) :
      Derives (keyword :: (front ++ rear)) (.reserved ⟨keyword.value, body, expressions⟩)

/-! ### Messages -/

/-- The tokens of what stands behind the declarations. -/
inductive MessageBody.Derives : List Token → MessageBody → Prop where
  /-- A pattern. -/
  | pattern {tokens : List Token} {p : Pattern} (h : Pattern.DerivesQuoted tokens p) :
      Derives tokens (.pattern p)
  /-- A matcher. -/
  | matcher {tokens : List Token} {m : Matcher} (h : Matcher.Derives tokens m) :
      Derives tokens (.matcher m)

/-- The tokens of a message without the end of the input. -/
inductive Message.DerivesInner : List Token → Message → Prop where
  /-- A simple message: a pattern. -/
  | simple {tokens : List Token} {p : Pattern} (h : Pattern.Derives tokens p) :
      DerivesInner tokens (.simple p)
  /-- A complex message: declarations and a body, and gaps around each of them. -/
  | complex {gap front tokens final : List Token} {declarations : List Declaration}
      {body : MessageBody} (hgap : Gap gap)
      (hdeclarations : Repeated (Before Declaration.Derives Gap) front declarations)
      (hbody : MessageBody.Derives tokens body) (hfinal : Gap final) :
      DerivesInner (gap ++ (front ++ (tokens ++ final))) (.complex declarations body)

/-- The tokens of a message. -/
inductive Message.Derives : List Token → Message → Prop where
  /-- The end of the input stands behind the message. -/
  | intro {tokens : List Token} {last : Token} {m : Message} (h : Message.DerivesInner tokens m)
      (hlast : last.kind = .endOfInput) : Derives (tokens ++ [last]) m

end MessageFormat
