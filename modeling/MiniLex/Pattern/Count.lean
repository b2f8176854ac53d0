import MiniLex.Pattern.Reader

/-!
# How often a part is repeated

A part is repeated as often as a sign behind it says, or numbers in braces: one number, one and a comma for at least so often,
or two with a comma between them for a range. White space may stand around the numbers. A question mark behind asks for as
little as there can be, which makes no difference to what a text holds.
-/

namespace MiniLex

namespace PatternReader

/-- The largest number of repetitions that can be written. -/
def largestCount : Nat := UInt32.size - 1

/-- A number with white space around it, or its fault. -/
def number (r : PatternReader) : Except Flaw Nat × PatternReader :=
  let r := r.past isWhiteSpace
  let (digits, s) := r.collect Char.isDigit
  let e := (s.collect isWhiteSpace).2
  let n := digits.foldl (fun n c => 10 * n + (c.toNat - '0'.toNat)) 0
  if digits.isEmpty then (.error (.simple .countMissing (s.since r.position)), e)
  else if largestCount < n then (.error (.simple .numberTooLarge (s.since r.position)), e)
  else (.ok n, e)

/-- The reader behind a question mark, if one comes next. -/
def behindShortest (r : PatternReader) : PatternReader := if r.head? = some '?' then r.bump else r

/-- The numbers in the braces in front of the reader: how often at least, and how often at most, if that is bounded. -/
def counts (r : PatternReader) : Except Flaw ((Nat × Option Nat) × PatternReader) := do
  let start := r.position
  let s := r.next
  if s.isAtEnd then throw (.simple .countUnclosed (s.since start))
  let (least, s) := s.number
  if s.isAtEnd then throw (.simple .countUnclosed (s.since start))
  let (range, s) ←
    if s.head? = some ',' then
      let s := s.next
      if s.isAtEnd then throw (.simple .countUnclosed (s.since start))
      if s.head? = some '}' then pure ((← least, none), s)
      else
        let least ← least
        let (most, s) := s.number
        pure ((least, some (← most)), s)
    else
      let n ← least
      pure ((n, some n), s)
  if s.head? ≠ some '}' then throw (.simple .countUnclosed (s.since start))
  let e := s.next.behindShortest
  if range.2.any (fun most => most < range.1) then throw (.simple .countReversed (e.since start))
  return (range, e)

end PatternReader

end MiniLex
