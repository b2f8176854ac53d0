/-!
# Sets of characters

A set of characters is a range, or is made from others: what is in one of two, what is in both, what is outside of one, and
what differs from a member at most in the case of an ASCII letter. Some sets of ASCII characters have names.
-/

namespace MiniLex

/-- A set of characters. -/
inductive CharSet where
  /-- No character. -/
  | empty
  /-- The characters from one to another, with both. -/
  | range (first last : Char)
  /-- What is in one of two sets. -/
  | union (s t : CharSet)
  /-- What is in both of two sets. -/
  | inter (s t : CharSet)
  /-- What is outside of a set. -/
  | compl (s : CharSet)
  /-- What is in a set, and the ASCII letters that are in it in their other case. -/
  | anyCase (s : CharSet)
  deriving DecidableEq

/-- An ASCII letter in its other case. Any other character is left as it is. -/
def otherCase (c : Char) : Char := if c.isUpper then c.toLower else c.toUpper

namespace CharSet

/-- Whether a character is in a set. -/
def contains : CharSet → Char → Bool
  | .empty, _ => false
  | .range first last, c => first ≤ c && c ≤ last
  | .union s t, c => s.contains c || t.contains c
  | .inter s t, c => s.contains c && t.contains c
  | .compl s, c => !s.contains c
  | .anyCase s, c => s.contains c || s.contains (otherCase c)

/-- The set of one character. -/
def single (c : Char) : CharSet := .range c c

/-- What is in one set and not in another. -/
def diff (s t : CharSet) : CharSet := .inter s (.compl t)

/-- What is in just one of two sets. -/
def symmDiff (s t : CharSet) : CharSet := .union (s.diff t) (t.diff s)

/-- The characters of several ranges. -/
def ofRanges (ranges : List (Char × Char)) : CharSet := ranges.foldr (fun r s => .union (.range r.1 r.2) s) .empty

/-- Whether a set is made without naming any character, so that it holds all of them or none. -/
def isBare : CharSet → Bool
  | .empty => true
  | .range .. => false
  | .union s t => s.isBare && t.isBare
  | .inter s t => s.isBare && t.isBare
  | .compl s => s.isBare
  | .anyCase s => s.isBare

end CharSet

/-- The sets of ASCII characters that have a name. -/
inductive NamedSet where
  | alnum | alpha | ascii | blank | cntrl | digit | graph | lower | print | punct | space | upper | word | xdigit
  deriving DecidableEq

namespace NamedSet

/-- The set that a name stands for. -/
def ofName? : String → Option NamedSet
  | "alnum" => some .alnum
  | "alpha" => some .alpha
  | "ascii" => some .ascii
  | "blank" => some .blank
  | "cntrl" => some .cntrl
  | "digit" => some .digit
  | "graph" => some .graph
  | "lower" => some .lower
  | "print" => some .print
  | "punct" => some .punct
  | "space" => some .space
  | "upper" => some .upper
  | "word" => some .word
  | "xdigit" => some .xdigit
  | _ => none

/-- The ranges of a named set. -/
def ranges : NamedSet → List (Char × Char)
  | .alnum => [('0', '9'), ('A', 'Z'), ('a', 'z')]
  | .alpha => [('A', 'Z'), ('a', 'z')]
  | .ascii => [('\x00', '\x7F')]
  | .blank => [('\t', '\t'), (' ', ' ')]
  | .cntrl => [('\x00', '\x1F'), ('\x7F', '\x7F')]
  | .digit => [('0', '9')]
  | .graph => [('!', '~')]
  | .lower => [('a', 'z')]
  | .print => [(' ', '~')]
  | .punct => [('!', '/'), (':', '@'), ('[', '\x60'), ('\x7B', '~')]
  | .space => [('\t', '\x0D'), (' ', ' ')]
  | .upper => [('A', 'Z')]
  | .word => [('0', '9'), ('A', 'Z'), ('_', '_'), ('a', 'z')]
  | .xdigit => [('0', '9'), ('A', 'F'), ('a', 'f')]

/-- A named set as a set. -/
def set (s : NamedSet) : CharSet := .ofRanges s.ranges

end NamedSet

end MiniLex
