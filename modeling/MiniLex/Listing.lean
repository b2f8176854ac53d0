import MiniLex.Diagnostic.Sink
import MiniLex.Scanner.Session

/-!
# Listings

A listing shows the tokens of a text, one entry each, the end of the text included, and counts the malformed ones. Nothing
in an entry is escaped, so an entry may itself run over several lines.
-/

namespace MiniLex

/-- The entries of the tokens of a text, and how many of the tokens are malformed. -/
structure Listing where
  entries : List String
  errorCount : Nat
  deriving DecidableEq

namespace Listing

/-- The listing of a sequence of tokens. -/
def ofTokens (tokens : List Token) : Listing := ⟨tokens.map Token.render, tokens.countP Token.isError⟩

/-- The entries with a line feed between each two. -/
def render (l : Listing) : String := "\n".intercalate l.entries

def hasErrors (l : Listing) : Bool := 0 < l.errorCount

/-- The listing of a source, and what becomes of the state of a sink that its diagnostics go to. -/
def ofSource {σ : Type} (sink : Sink σ) (state : σ) (source : String) : Listing × σ :=
  (ofTokens (tokenize source).tokens, sink.feed state (tokenize source).events)

end Listing

end MiniLex
