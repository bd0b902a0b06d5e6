import MessageFormat.Binary64.Basic
import MessageFormat.Binary64.Decimal
import MessageFormat.Binary64.Printing
import MessageFormat.Binary64.Reading
import MessageFormat.Binary64.Rounding
import MessageFormat.Error
import MessageFormat.Formatting
import MessageFormat.Function.Basic
import MessageFormat.Function.Number
import MessageFormat.Function.Standard
import MessageFormat.Function.Text
import MessageFormat.Message.Basic
import MessageFormat.Message.Parsing
import MessageFormat.Message.Printing
import MessageFormat.Message.Reading
import MessageFormat.Message.Repetition
import MessageFormat.Message.Validity
import MessageFormat.NameMap
import MessageFormat.Plural.Operands
import MessageFormat.Plural.Rules
import MessageFormat.Proofs.BareLiterals
import MessageFormat.Proofs.Brackets
import MessageFormat.Proofs.Completeness
import MessageFormat.Proofs.Contexts
import MessageFormat.Proofs.Decimals
import MessageFormat.Proofs.Decoding
import MessageFormat.Proofs.Dependence
import MessageFormat.Proofs.Escaping
import MessageFormat.Proofs.Expectations
import MessageFormat.Proofs.FallbackTexts
import MessageFormat.Proofs.Fallbacks
import MessageFormat.Proofs.Grammar
import MessageFormat.Proofs.Inlining
import MessageFormat.Proofs.Isolation
import MessageFormat.Proofs.Lexed
import MessageFormat.Proofs.Lexing
import MessageFormat.Proofs.Mismatches
import MessageFormat.Proofs.Nearest
import MessageFormat.Proofs.Numeral
import MessageFormat.Proofs.NumericSelection
import MessageFormat.Proofs.OptionMaps
import MessageFormat.Proofs.OptionPlaces
import MessageFormat.Proofs.ParsedNodes
import MessageFormat.Proofs.Parsing
import MessageFormat.Proofs.Path
import MessageFormat.Proofs.Places
import MessageFormat.Proofs.Preference
import MessageFormat.Proofs.Printing
import MessageFormat.Proofs.Quoting
import MessageFormat.Proofs.Ranking
import MessageFormat.Proofs.Reannotation
import MessageFormat.Proofs.Rebinding
import MessageFormat.Proofs.Rereading
import MessageFormat.Proofs.Resolving
import MessageFormat.Proofs.RoundTrip
import MessageFormat.Proofs.Scanning
import MessageFormat.Proofs.Selection
import MessageFormat.Proofs.Shape
import MessageFormat.Proofs.Soundness
import MessageFormat.Proofs.Spelling
import MessageFormat.Proofs.Tiers
import MessageFormat.Proofs.Tokenization
import MessageFormat.Proofs.Validity
import MessageFormat.Proofs.Variants
import MessageFormat.Proofs.Violations
import MessageFormat.Proofs.WholeNumbers
import MessageFormat.Proofs.Words
import MessageFormat.Resolution.Basic
import MessageFormat.Resolution.Formatting
import MessageFormat.Resolution.Ranking
import MessageFormat.Resolution.Scope
import MessageFormat.Source
import MessageFormat.Text.Character
import MessageFormat.Text.Escape
import MessageFormat.Text.Name
import MessageFormat.Text.Quoted
import MessageFormat.Text.Unprintable
import MessageFormat.Text.WhiteSpace
import MessageFormat.Token.Basic
import MessageFormat.Token.Cursor
import MessageFormat.Token.Fault
import MessageFormat.Token.Lexeme
import MessageFormat.Token.Scanner
import MessageFormat.Value
import MessageFormat.Proofs.PlainText
import MessageFormat.Proofs.EndOfInput
import MessageFormat.Proofs.FirstViolation
import MessageFormat.Proofs.Layout
import MessageFormat.Proofs.FractionDigits
import MessageFormat.Proofs.SourceLines
import MessageFormat.Proofs.BodyScan
import MessageFormat.Proofs.Walk
import MessageFormat.Proofs.WalkSteps
import MessageFormat.Proofs.WalkReadings
import MessageFormat.Proofs.InPlace
