/-
# Tokens

Free text is cut into tokens: maximal runs of word characters, without those of 40 bytes or more,
in lower case. The words of a query are lowered as whole words. The text of a document is lowered
by the engine character by character, which differs in one letter only: a capital sigma at the end
of a word.

Key definitions: `tokens`, `indexedTokens`, `joinWords`.
-/
import Codebook.Text.LowerCase
import Codebook.Text.Space

namespace Codebook

/-- The number of bytes from which on a token is dropped. -/
def maxTokenBytes : Nat := 40

/-- The maximal runs of word characters that are short enough to be tokens. -/
def rawTokens (s : String) : List String :=
  ((Text.runs Text.isWordChar s.toList).map String.ofList).filter fun t =>
    t.utf8ByteSize < maxTokenBytes

/-- The tokens of a query. -/
def tokens (s : String) : List String :=
  (rawTokens s).map Text.lower

/-- The tokens of a document. -/
def indexedTokens (s : String) : List String :=
  (rawTokens s).map Text.lowerEach

/-- The words of several texts, each once and in the order in which they first occur, as one
text. -/
def joinWords (texts : List String) : String :=
  " ".intercalate ((texts.flatMap Text.words).foldl
    (fun seen word => if seen.contains word then seen else seen ++ [word]) [])

end Codebook
