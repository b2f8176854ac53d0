import MiniLex.Pattern.CharSet

/-!
# Patterns

A pattern describes stretches of text. It is matched against a text from all gaps between characters at once: with the gaps
marked where a stretch may begin, `Pattern.advance` marks those where it may end. A text matches where some stretch of it is
described, wherever that stands.

A text with `n` characters has room for `n` stretches one behind the other that are not empty. So a pattern that is repeated
without an upper bound is repeated at most `n` times on top of the times required, and of those no more than `n + 1` count:
of so many, one stands for an empty stretch, and that may be repeated in its place as often as required.
-/

namespace MiniLex

/-- What may stand at a gap with regard to words. -/
inductive WordEdge where
  /-- A word begins or ends. -/
  | boundary
  /-- No word begins or ends. -/
  | inside
  /-- A word begins. -/
  | start
  /-- A word ends. -/
  | stop
  /-- No word leads up to the gap. -/
  | startHalf
  /-- No word goes on from the gap. -/
  | stopHalf
  deriving DecidableEq

/-- Whether an edge stands between a character that is part of a word or not and one that is or is not. -/
def WordEdge.holds : WordEdge → Bool → Bool → Bool
  | .boundary, before, behind => before != behind
  | .inside, before, behind => before == behind
  | .start, before, behind => !before && behind
  | .stop, before, behind => before && !behind
  | .startHalf, before, _ => !before
  | .stopHalf, _, behind => !behind

/-- What a pattern asks of a gap. -/
inductive GapTest where
  | textStart
  | textEnd
  /-- The beginning of a line. Only a line feed ends lines, or else a carriage return does, too. -/
  | lineStart (returns : Bool)
  /-- The end of a line. -/
  | lineEnd (returns : Bool)
  /-- The edge of a word of ASCII letters, digits and underscores. -/
  | word (e : WordEdge)
  /-- The edge of a word in which the letters and digits of every script count. There are no tables for these. -/
  | scriptWord (e : WordEdge)
  deriving DecidableEq

namespace GapTest

/-- Whether the character on one side of a gap, if there is one, is part of an ASCII word. -/
def inWord (c : Option Char) : Bool := c.any NamedSet.word.set.contains

/-- Whether a test holds at the gap between two characters, of which one may be missing. -/
def holds : GapTest → Option Char → Option Char → Bool
  | .textStart, before, _ => before.isNone
  | .textEnd, _, behind => behind.isNone
  | .lineStart false, before, _ => before.isNone || before == some '\n'
  | .lineStart true, before, behind =>
    before.isNone || before == some '\n' || (before == some '\x0D' && behind != some '\n')
  | .lineEnd false, _, behind => behind.isNone || behind == some '\n'
  | .lineEnd true, before, behind =>
    behind.isNone || behind == some '\x0D' || (behind == some '\n' && before != some '\x0D')
  | .word e, before, behind => e.holds (inWord before) (inWord behind)
  | .scriptWord _, _, _ => false

end GapTest

/-- A description of stretches of text. -/
inductive Pattern where
  /-- The empty stretch. -/
  | empty
  /-- One character of a set. -/
  | one (s : CharSet)
  /-- The empty stretch at a gap where a test holds. -/
  | gap (t : GapTest)
  /-- One stretch behind another. -/
  | seq (p q : Pattern)
  /-- A stretch of one kind or of another. -/
  | alt (p q : Pattern)
  /-- As many stretches as a number says, one behind the other. -/
  | rep (p : Pattern) (least : Nat) (most : Option Nat)
  /-- A stretch that is kept. -/
  | kept (p : Pattern)
  deriving DecidableEq

namespace Pattern

/-- The characters before and behind every gap of a text. -/
def gaps (text : List Char) : List (Option Char × Option Char) := (none :: text.map some).zip (text.map some ++ [none])

def times (step : List Bool → List Bool) : Nat → List Bool → List Bool
  | 0, marks => marks
  | n + 1, marks => times step n (step marks)

/-- Does a step up to so many times, and gathers the marks on the way. -/
def gather (step : List Bool → List Bool) : Nat → List Bool → List Bool
  | 0, marks => marks
  | n + 1, marks =>
    let more := List.zipWith (· || ·) marks (step marks)
    if more = marks then marks else gather step n more

/-- The gaps of a text where a stretch may end that begins at a marked gap. -/
def advance (text : List Char) : Pattern → List Bool → List Bool
  | .empty, marks => marks
  | .one s, marks => false :: List.zipWith (fun mark c => mark && s.contains c) marks text
  | .gap t, marks => List.zipWith (fun mark g => mark && t.holds g.1 g.2) marks (gaps text)
  | .seq p q, marks => q.advance text (p.advance text marks)
  | .alt p q, marks => List.zipWith (· || ·) (p.advance text marks) (q.advance text marks)
  | .rep p least most, marks =>
    let room := text.length
    gather (p.advance text) (match most with | none => room | some most => min (most - least) room)
      (times (p.advance text) (min least (room + 1)) marks)
  | .kept p, marks => p.advance text marks

/-- Whether some stretch of a text is as a pattern describes it. -/
def isIn (p : Pattern) (text : String) : Bool :=
  let text := text.toList
  (p.advance text (List.replicate (text.length + 1) true)).any id

/-- Whether there are tables for all that a pattern asks. -/
def isDecidable : Pattern → Bool
  | .gap (.scriptWord _) => false
  | .empty | .one _ | .gap _ => true
  | .seq p q => p.isDecidable && q.isDecidable
  | .alt p q => p.isDecidable && q.isDecidable
  | .rep p _ _ => p.isDecidable
  | .kept p => p.isDecidable

/-- Whether a pattern describes no stretch but empty ones. -/
def isHollow : Pattern → Bool
  | .empty | .gap _ => true
  | .one _ => false
  | .seq p q => p.isHollow && q.isHollow
  | .alt p q => p.isHollow && q.isHollow
  | .rep p _ _ => p.isHollow
  | .kept p => p.isHollow

/-- A pattern so many times. Empty stretches count once, nothing is left of what is not to be there, and once is the pattern
itself. -/
def repeated (p : Pattern) (least : Nat) (most : Option Nat) : Pattern :=
  let least := if p.isHollow then min least 1 else least
  let most := if p.isHollow then some (min (most.getD 1) 1) else most
  if most = some 0 then .empty else if least = 1 ∧ most = some 1 then p else .rep p least most

end Pattern

end MiniLex
