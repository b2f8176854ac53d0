import MiniLex.Diagnostic.Sink
import MiniLex.Scanner.Basic

/-!
# Sessions with a scanner

A caller may take tokens from one scanner singly or all at once, in any order, and may look at it in between. A session
records for each call the reply and the events that the caller's sink receives while the call runs. Taking a single token
sends no word of the end, taking all of them sends it once, behind all diagnostics.
-/

namespace MiniLex

/-- What a caller may ask of a scanner. -/
inductive Call where
  /-- The next token. -/
  | next
  /-- All tokens up to the end of the text. -/
  | scan
  /-- Whether every character has been read. -/
  | isAtEnd
  /-- The source. -/
  | source
  deriving DecidableEq

/-- What a scanner replies to a call. -/
inductive Reply where
  | token (t : Token)
  | tokens (ts : List Token)
  | answer (b : Bool)
  | text (s : String)
  deriving DecidableEq

/-- The reply to a call and the events that were sent while it ran. -/
structure Exchange where
  reply : Reply
  events : List Event
  deriving DecidableEq

/-- The events of a scan up to the end of the text. -/
def Scan.events (s : Scan) : List Event := s.diagnostics.map Event.diagnostic ++ [.flush]

namespace Scanner

/-- Answers a call. -/
def call (s : Scanner) : Call → Exchange × Scanner
  | .next => (⟨.token s.next.token, s.next.diagnostic.toList.map Event.diagnostic⟩, s.next.scanner)
  | .scan => (⟨.tokens s.scan.tokens, s.scan.events⟩, s.scan.scanner)
  | .isAtEnd => (⟨.answer s.isAtEnd, []⟩, s)
  | .source => (⟨.text s.source, []⟩, s)

/-- Answers several calls, one after the other. -/
def session (s : Scanner) : List Call → List Exchange
  | [] => []
  | c :: calls => (s.call c).1 :: session (s.call c).2 calls

end Scanner

end MiniLex
