import MessageFormat.Binary64.Printing
import MessageFormat.Binary64.Reading

/-!
# Messages

The data model of messages.  A message is a pattern, or declarations followed by a pattern or by a
matcher that chooses one among several.  All text is decoded: escapes are a matter of reading and
printing.
-/

namespace MessageFormat

/-- A name, in a namespace or in none. -/
structure Identifier where
  /-- The namespace. -/
  qualifier : Option String := none
  /-- The name. -/
  name : String
deriving DecidableEq, Repr, Inhabited

/-- A number with its spelling. -/
structure NumberLiteral where
  /-- The number as written. -/
  source : String
  /-- The number that it means. -/
  value : Binary64
deriving BEq

/-- A literal value. -/
inductive Literal where
  /-- A text between bars. -/
  | quoted (text : String)
  /-- A bare name. -/
  | name (text : String)
  /-- A number. -/
  | number (number : NumberLiteral)
deriving BEq

/-- What an expression, an option or an attribute takes its value from. -/
inductive Operand where
  /-- A literal value. -/
  | literal (literal : Literal)
  /-- The value of a variable. -/
  | variableName (name : String)
deriving BEq

/-- An option of a function or of markup. -/
structure NamedOption where
  /-- The name of the option. -/
  identifier : Identifier
  /-- Its value. -/
  value : Operand
deriving BEq

/-- An attribute, which says something about an expression without changing what it does. -/
structure Attribute where
  /-- The name of the attribute. -/
  identifier : Identifier
  /-- Its value, if it has one. -/
  value : Option Operand := none
deriving BEq

/-- A piece of a reserved body. -/
inductive BodyPiece where
  /-- Text, with the blanks inside it. -/
  | text (text : String)
  /-- A text between bars. -/
  | quoted (text : String)
deriving DecidableEq, Repr

/-- A call of a function. -/
structure FunctionCall where
  /-- The function. -/
  identifier : Identifier
  /-- The options, in the order written. -/
  options : List NamedOption := []
deriving BEq

/-- A sigil and what it reserves.  It can be printed and reported, and has no meaning. -/
structure ReservedDirective where
  /-- The sigil. -/
  sigil : Char
  /-- What stands behind the sigil. -/
  body : List BodyPiece := []
deriving DecidableEq, Repr

/-- What is to be done with an operand. -/
inductive Directive where
  /-- Apply a function to it. -/
  | function (call : FunctionCall)
  /-- Something agreed on outside of messages. -/
  | privateUse (directive : ReservedDirective)
  /-- Something that messages may come to mean. -/
  | reserved (directive : ReservedDirective)
deriving BEq

/-- A placeholder for a value. -/
structure Expression where
  /-- What the value comes from. -/
  operand : Option Operand := none
  /-- What is to be done with it. -/
  directive : Option Directive := none
  /-- The attributes, in the order written. -/
  attributes : List Attribute := []
deriving BEq, Inhabited

/-- How markup stands to what surrounds it. -/
inductive MarkupKind where
  /-- It opens a stretch. -/
  | opening
  /-- It closes a stretch. -/
  | closing
  /-- It stands alone. -/
  | standalone
deriving DecidableEq, Repr

/-- A placeholder for something that is no text. -/
structure Markup where
  /-- Whether it opens, closes or stands alone. -/
  kind : MarkupKind
  /-- Its name. -/
  identifier : Identifier
  /-- The options, in the order written. -/
  options : List NamedOption := []
  /-- The attributes, in the order written. -/
  attributes : List Attribute := []
deriving BEq

/-- A part of a pattern. -/
inductive PatternPart where
  /-- Text. -/
  | text (text : String)
  /-- A placeholder for a value. -/
  | expression (expression : Expression)
  /-- A placeholder for something that is no text. -/
  | markup (markup : Markup)
deriving BEq

/-- What a message becomes: its parts, in order. -/
abbrev Pattern : Type := List PatternPart

/-- A key of a variant. -/
inductive VariantKey where
  /-- A literal, which matches as its selector says. -/
  | literal (literal : Literal)
  /-- The key that matches always. -/
  | catchAll
deriving BEq

/-- A pattern with the keys that it is for. -/
structure Variant where
  /-- One key for each selector. -/
  keys : List VariantKey
  /-- The pattern. -/
  pattern : Pattern
deriving BEq

/-- A choice among patterns. -/
structure Matcher where
  /-- The expressions that the choice depends on. -/
  selectors : List Expression
  /-- What is chosen among, in the order written. -/
  variants : List Variant
deriving BEq

/-- A statement whose keyword has no meaning. -/
structure ReservedStatement where
  /-- The keyword, without its point. -/
  keyword : String
  /-- What stands behind the keyword. -/
  body : List BodyPiece := []
  /-- The expressions behind that. -/
  expressions : List Expression
deriving BEq

/-- A statement before the body of a message. -/
inductive Declaration where
  /-- Gives a directive to a variable of the caller. -/
  | input (expression : Expression)
  /-- Gives a value to a variable of the message. -/
  | assign (name : String) (expression : Expression)
  /-- A statement that has no meaning. -/
  | reserved (statement : ReservedStatement)
deriving BEq

/-- What stands behind the declarations. -/
inductive MessageBody where
  /-- A pattern. -/
  | pattern (pattern : Pattern)
  /-- A choice among patterns. -/
  | matcher (matcher : Matcher)
deriving BEq

/-- A message. -/
inductive Message where
  /-- A pattern and nothing else. -/
  | simple (pattern : Pattern)
  /-- Declarations and a body. -/
  | complex (declarations : List Declaration) (body : MessageBody)
deriving BEq

/-! ### Identifiers and literals -/

namespace Identifier

/-- The identifier that a text spells: what stands before its first colon is the namespace. -/
def ofText (text : String) : Identifier :=
  match text.toList.dropWhile (· != ':') with
  | [] => ⟨none, text⟩
  | _ :: name => ⟨some (String.ofList (text.toList.takeWhile (· != ':'))), String.ofList name⟩

/-- The identifier as written. -/
def text (identifier : Identifier) : String :=
  match identifier.qualifier with
  | some qualifier => qualifier ++ ":" ++ identifier.name
  | none => identifier.name

end Identifier

namespace NumberLiteral

/-- The literal of a spelling. -/
def ofSource (source : String) : NumberLiteral :=
  ⟨source, (Binary64.ofText? source.toList).getD .nan⟩

/-- The literal of a number, in its shortest spelling. -/
def ofBinary64 (value : Binary64) : NumberLiteral := ⟨value.text, value⟩

end NumberLiteral

/-- The text of the literal; that of a number is its spelling. -/
def Literal.value : Literal → String
  | quoted text | name text => text
  | number n => n.source

/-! ### Parts of messages -/

/-- The name of the variable, if the operand is one. -/
def Operand.variableName? : Operand → Option String
  | variableName name => some name
  | literal _ => none

namespace Expression

/-- The name of the variable that is the operand. -/
def variableName? (expression : Expression) : Option String :=
  expression.operand.bind Operand.variableName?

/-- The call of a function that is the directive. -/
def call? (expression : Expression) : Option FunctionCall :=
  match expression.directive with
  | some (.function call) => some call
  | _ => none

end Expression

namespace VariantKey

/-- Whether the key matches always. -/
def isCatchAll : VariantKey → Bool
  | catchAll => true
  | literal _ => false

/-- What the key is compared by: the text of a literal, however it is written. -/
def text? : VariantKey → Option String
  | literal l => some l.value
  | catchAll => none

end VariantKey

namespace Variant

/-- Whether the variant matches always. -/
def isFallback (variant : Variant) : Bool := variant.keys.all VariantKey.isCatchAll

/-- How many keys match always. -/
def catchAllCount (variant : Variant) : Nat := variant.keys.countP VariantKey.isCatchAll

end Variant

namespace Declaration

/-- The name of the variable that the declaration binds. -/
def boundName? : Declaration → Option String
  | input expression => expression.variableName?
  | assign name _ => some name
  | reserved _ => none

/-- The expressions of the declaration. -/
def expressions : Declaration → List Expression
  | input expression | assign _ expression => [expression]
  | reserved statement => statement.expressions

end Declaration

namespace Message

/-- The declarations of the message. -/
def declarations : Message → List Declaration
  | simple _ => []
  | complex declarations _ => declarations

/-- Whether the message is a pattern and nothing else. -/
def isSimple : Message → Bool
  | simple _ => true
  | complex .. => false

end Message

end MessageFormat
