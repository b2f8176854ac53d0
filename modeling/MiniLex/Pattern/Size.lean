import MiniLex.Pattern.Basic

/-!
# How large a pattern is

A pattern is matched by an automaton over the bytes of a text, and one whose automaton would take too much memory is refused.
A state takes 32 bytes, and a choice 4 more for each way on. A character takes a state for every byte of it, a set of ASCII
characters two states and 8 bytes for each range if there are several. A set that reaches beyond ASCII takes more: the
encodings of all that is there are eight sequences of bytes, which make 26 states.
-/

namespace MiniLex

/-- The memory of a state of an automaton, in bytes. -/
def stateBytes : Nat := 32

/-- The memory of a way on from a choice, in bytes. -/
def wayBytes : Nat := 4

/-- The memory of a range of characters among several, in bytes. -/
def rangeBytes : Nat := 8

namespace CharSet

/-- The number of ranges that the ASCII characters of a set make. -/
def asciiRanges (s : CharSet) : Nat :=
  ((List.range 128).filter fun n =>
    s.contains (Char.ofNat n) && (n == 0 || !s.contains (Char.ofNat (n - 1)))).length

/-- Whether a set is made in such a way that it holds nothing but ASCII characters. -/
def isAscii : CharSet → Bool
  | .empty => true
  | .range _ last => last.toNat < 128
  | .union s t => s.isAscii && t.isAscii
  | .inter s t => s.isAscii || t.isAscii
  | .compl _ => false
  | .anyCase s => s.isAscii

/-- The memory that an automaton takes for one character of a set, by the ranges of ASCII characters in it. -/
def sizeOfRanges (s : CharSet) (ranges : Nat) : Nat :=
  2 * stateBytes +
    if s.isAscii then if ranges = 1 then 0 else rangeBytes * ranges
    else (stateBytes + wayBytes) * ranges + 26 * stateBytes + 8 * wayBytes

/-- The memory that an automaton takes for one character of a set. -/
def size : CharSet → Nat
  | .empty => stateBytes
  | .range first last =>
    if first = last then stateBytes * first.utf8Size
    else (CharSet.range first last).sizeOfRanges (CharSet.range first last).asciiRanges
  | s => s.sizeOfRanges s.asciiRanges

end CharSet

namespace Pattern

/-- The memory that the automaton of a pattern takes. -/
def size : Pattern → Nat
  | .empty | .gap _ => stateBytes
  | .one s => s.size
  | .seq p q => p.size + q.size
  | .alt p q => p.size + q.size + 2 * (stateBytes + wayBytes)
  | .rep p 0 none => p.size + stateBytes + 2 * wayBytes
  | .rep p (n + 1) none => (n + 1) * p.size + stateBytes + 2 * wayBytes
  | .rep p least (some most) =>
    (if least = 0 then stateBytes else least * p.size) +
      (if most ≤ least then 0 else stateBytes + (most - least) * (p.size + stateBytes + 2 * wayBytes))
  | .kept p => p.size + 2 * stateBytes

/-- How much memory an automaton may take: ten megabytes. -/
def sizeLimit : Nat := 10 * 1024 * 1024

/-- Whether the automaton of a pattern takes too much memory. -/
def isTooLarge (p : Pattern) : Bool := sizeLimit < p.size

end Pattern

end MiniLex
