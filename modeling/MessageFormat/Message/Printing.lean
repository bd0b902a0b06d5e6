import MessageFormat.Message.Basic
import MessageFormat.Text.Escape
import MessageFormat.Text.Name

/-!
# The text of messages

The canonical text of a message and of each of its parts: one space where a separator is needed and
nothing where it is not, and escapes only for the characters that need them.
-/

namespace MessageFormat

/-- A text between bars. -/
def printQuoted (text : String) : String := "|" ++ escapeQuoted text ++ "|"

/-- The text of a literal.  A name or a number that would not be read as one is quoted. -/
def Literal.print : Literal → String
  | .name text => if isName text then text else printQuoted text
  | .number n => if isNumberLiteral n.source then n.source else printQuoted n.source
  | .quoted text => printQuoted text

/-- The text of an operand. -/
def Operand.print : Operand → String
  | .variableName name => "$" ++ name
  | .literal l => l.print

/-- The text of an option, with the space before it. -/
def NamedOption.print (o : NamedOption) : String := " " ++ o.identifier.text ++ "=" ++ o.value.print

/-- The text of an attribute, with the space before it. -/
def Attribute.print (a : Attribute) : String :=
  " @" ++ a.identifier.text ++ (match a.value with
    | some value => "=" ++ value.print
    | none => "")

/-- The text of a piece of a reserved body. -/
def BodyPiece.print : BodyPiece → String
  | .text t => escapeReserved t
  | .quoted t => printQuoted t

/-- The text of a reserved body. -/
def printBody (body : List BodyPiece) : String := String.join (body.map BodyPiece.print)

/-- The text of options, each with the space before it. -/
def printOptions (options : List NamedOption) : String :=
  String.join (options.map NamedOption.print)

/-- The text of attributes, each with the space before it. -/
def printAttributes (attributes : List Attribute) : String :=
  String.join (attributes.map Attribute.print)

/-- The text of a directive. -/
def Directive.print : Directive → String
  | .function call => ":" ++ call.identifier.text ++ printOptions call.options
  | .privateUse directive | .reserved directive =>
    String.singleton directive.sigil ++ printBody directive.body

/-- The text of an expression. -/
def Expression.print (e : Expression) : String :=
  let operand := match e.operand with
    | some operand => operand.print
    | none => ""
  let directive := match e.operand, e.directive with
    | some _, some directive => " " ++ directive.print
    | none, some directive => directive.print
    | _, none => ""
  "\x7b" ++ operand ++ directive ++ printAttributes e.attributes ++ "\x7d"

/-- The text of markup. -/
def Markup.print (m : Markup) : String :=
  "\x7b" ++ (if m.kind = .closing then "/" else "#") ++ m.identifier.text ++
    printOptions m.options ++ printAttributes m.attributes ++
    (if m.kind = .standalone then "/" else "") ++ "\x7d"

/-- The text of a part of a pattern. -/
def PatternPart.print : PatternPart → String
  | .text t => escapeText t
  | .expression e => e.print
  | .markup m => m.print

/-- The text of a pattern. -/
def Pattern.print (pattern : Pattern) : String := String.join (pattern.map PatternPart.print)

/-- The text of a pattern between double braces. -/
def Pattern.printQuoted (pattern : Pattern) : String :=
  "\x7b\x7b" ++ Pattern.print pattern ++ "\x7d\x7d"

/-- The text of a key. -/
def VariantKey.print : VariantKey → String
  | .catchAll => "*"
  | .literal l => l.print

/-- The text of a variant. -/
def Variant.print (v : Variant) : String :=
  String.join (v.keys.map fun key => key.print ++ " ") ++ Pattern.printQuoted v.pattern

/-- The text of a matcher. -/
def Matcher.print (m : Matcher) : String :=
  ".match" ++ String.join (m.selectors.map fun selector => " " ++ selector.print) ++
    String.join (m.variants.map fun variant => " " ++ variant.print)

/-- The text of a declaration. -/
def Declaration.print : Declaration → String
  | .input expression => ".input " ++ expression.print
  | .assign name expression => ".local $" ++ name ++ " = " ++ expression.print
  | .reserved statement =>
    "." ++ statement.keyword ++
      (if statement.body.isEmpty then "" else " " ++ printBody statement.body) ++
      String.join (statement.expressions.map fun expression => " " ++ expression.print)

/-- The text of the body of a message. -/
def MessageBody.print : MessageBody → String
  | .pattern p => Pattern.printQuoted p
  | .matcher m => m.print

/-- Whether a pattern begins with text that begins with a point, blanks aside.  Without quotes it
would be read as a complex message. -/
def Pattern.beginsWithPoint (pattern : Pattern) : Bool :=
  match pattern with
  | .text text :: _ => (text.toList.dropWhile isBlank).head? == some '.'
  | _ => false

/-- The canonical text of a message. -/
def Message.print : Message → String
  | .simple pattern =>
    if Pattern.beginsWithPoint pattern then Pattern.printQuoted pattern else Pattern.print pattern
  | .complex declarations body =>
    String.join (declarations.map fun declaration => declaration.print ++ " ") ++ body.print

end MessageFormat
