import MiniLex.Character.WhiteSpace
import MiniLex.Pattern.Fault

/-!
# Reading a pattern

A reader stands at a place in a pattern. It goes on by one character with or without the white space and the comments behind
it, which count for nothing where the pattern says so. A comment goes from a number sign to the end of its line. Only a line
feed ends lines.
-/

namespace MiniLex

/-- A reader of a pattern. -/
structure PatternReader where
  position : PatternPlace
  rest : List Char
  /-- Whether white space and comments are passed over. -/
  spaced : Bool
  /-- The names of groups so far, with their places. -/
  names : List (String × Stretch)
  deriving DecidableEq

namespace PatternReader

/-- The reader at the beginning of a pattern. -/
def ofString (pattern : String) : PatternReader := ⟨.first, pattern.toList, false, []⟩

def head? (r : PatternReader) : Option Char := r.rest.head?

/-- The character behind the next one. -/
def second? (r : PatternReader) : Option Char := r.rest.tail.head?

def isAtEnd (r : PatternReader) : Bool := r.rest.isEmpty

/-- The empty stretch where the reader stands. -/
def here (r : PatternReader) : Stretch := .point r.position

/-- The stretch of the next character. -/
def nextPlace (r : PatternReader) : Stretch := ⟨r.position, (r.head?.map r.position.past).getD r.position⟩

/-- The stretch from a place up to where the reader stands. -/
def since (r : PatternReader) (start : PatternPlace) : Stretch := ⟨start, r.position⟩

/-- The reader behind the next character. -/
def bump (r : PatternReader) : PatternReader :=
  match r.rest with
  | [] => r
  | c :: cs => ⟨r.position.past c, cs, r.spaced, r.names⟩

/-- The reader behind so many characters. -/
def bumpBy (r : PatternReader) : Nat → PatternReader
  | 0 => r
  | n + 1 => r.bump.bumpBy n

/-- The reader behind the characters of a kind in front of it. -/
def past (r : PatternReader) (p : Char → Bool) : PatternReader := r.bumpBy (r.rest.takeWhile p).length

/-- How many characters of white space and comments a text begins with, possibly from inside a comment. -/
def leadingSpace (inComment : Bool) : List Char → Nat
  | [] => 0
  | c :: cs =>
    if inComment then leadingSpace (c != '\n') cs + 1
    else if isWhiteSpace c then leadingSpace false cs + 1
    else if c = '#' then leadingSpace true cs + 1
    else 0

/-- The reader behind white space and comments, if these are passed over. -/
def skip (r : PatternReader) : PatternReader := if r.spaced then r.bumpBy (leadingSpace false r.rest) else r

/-- The reader behind the next character and what is passed over behind it. -/
def next (r : PatternReader) : PatternReader := r.bump.skip

/-- The reader behind a text, if that comes next. -/
def behind? (r : PatternReader) (text : String) : Option PatternReader :=
  if text.toList.isPrefixOf r.rest then some (r.bumpBy text.length) else none

theorem length_bump (r : PatternReader) : r.bump.rest.length = r.rest.length - 1 := by
  unfold bump
  split
  · next h => simp [h]
  · next c cs h => simp [h]

theorem length_bumpBy_le (r : PatternReader) (n : Nat) : (r.bumpBy n).rest.length ≤ r.rest.length := by
  induction n generalizing r with
  | zero => exact Nat.le_refl _
  | succ n ih =>
    have := ih r.bump
    have := r.length_bump
    simp only [bumpBy]
    omega

/-- Going on leaves less to read, if there was anything. -/
theorem length_next_lt (r : PatternReader) (h : r.isAtEnd = false) : r.next.rest.length < r.rest.length := by
  have hb := r.length_bump
  have hpos : 0 < r.rest.length := by
    unfold isAtEnd at h
    exact List.length_pos_iff.mpr (by simpa using h)
  unfold next skip
  split
  · have := r.bump.length_bumpBy_le (leadingSpace false r.bump.rest)
    omega
  · omega

/-- The characters of a kind in front of the reader, with what is passed over between and behind them left out. -/
def collect (p : Char → Bool) (r : PatternReader) : List Char × PatternReader :=
  match _h : r.rest with
  | [] => ([], r)
  | c :: _ =>
    if p c then
      let (cs, s) := collect p r.next
      (c :: cs, s)
    else ([], r)
termination_by r.rest.length
decreasing_by exact r.length_next_lt (by simp [isAtEnd, _h])

/-- The first character behind the next one that is no white space. Where white space and comments are passed over, the sign
that begins a comment does not count either; and where there is no such character, the one behind the next counts. -/
def secondWord? (r : PatternReader) : Option Char :=
  if r.spaced then
    let words := r.rest.tail.dropWhile isWhiteSpace
    let words := if words.head? = some '#' then words.tail.dropWhile isWhiteSpace else words
    words.head?.or r.second?
  else r.second?

end PatternReader

end MiniLex
