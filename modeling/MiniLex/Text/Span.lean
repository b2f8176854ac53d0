/-!
# Stretches of a text

A span is the half-open range of byte offsets from `start` up to but not including `stop`.
-/

namespace MiniLex

/-- A range of byte offsets in a text. -/
structure Span where
  start : Nat
  stop : Nat
  deriving DecidableEq

namespace Span

def point (offset : Nat) : Span := ⟨offset, offset⟩

/-- The number of bytes that a span covers. -/
def length (s : Span) : Nat := s.stop - s.start

def isEmpty (s : Span) : Bool := s.start == s.stop

end Span

end MiniLex
