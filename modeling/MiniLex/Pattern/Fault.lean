/-!
# What is wrong with a pattern

A pattern that cannot be read is shown with the place of its fault marked below it, and in front of the wording of the fault.
Where a fault is that something is there twice, both places are marked. The lines of a pattern that has several are numbered,
and a place that goes over several lines is told in words.
-/

namespace MiniLex

/-- What may be wrong with a pattern. -/
inductive PatternFault where
  | setEscape | setRangeReversed | setRangeBoundary | setUnclosed
  | numberTooLarge
  | hexEmpty | hexOutOfRange | hexDigit
  | escapeUnfinished | escapeUnknown
  | flagNegationDangling | flagTwice | flagNegationTwice | flagMissing | flagUnknown
  | nameTwice | nameEmpty | nameCharacter | nameUnclosed
  | groupUnclosed | groupUnopened
  | nesting (limit : Nat)
  | countReversed | countMissing | countUnclosed
  | repetitionOfNothing
  | edgeUnclosed | edgeUnknown | edgeUnfinished
  | propertyName
  | backReference | lookAround
  | letterBeyondAscii | invalidText
  | propertyUnknown | propertyValueUnknown
  | setUnavailable | caseUnavailable
  deriving DecidableEq

/-- The wording of a fault. -/
def PatternFault.message : PatternFault → String
  | .setEscape => "invalid escape sequence found in character class"
  | .setRangeReversed => "invalid character class range, the start must be <= the end"
  | .setRangeBoundary => "invalid range boundary, must be a literal"
  | .setUnclosed => "unclosed character class"
  | .numberTooLarge => "decimal literal invalid"
  | .hexEmpty => "hexadecimal literal empty"
  | .hexOutOfRange => "hexadecimal literal is not a Unicode scalar value"
  | .hexDigit => "invalid hexadecimal digit"
  | .escapeUnfinished => "incomplete escape sequence, reached end of pattern prematurely"
  | .escapeUnknown => "unrecognized escape sequence"
  | .flagNegationDangling => "dangling flag negation operator"
  | .flagTwice => "duplicate flag"
  | .flagNegationTwice => "flag negation operator repeated"
  | .flagMissing => "expected flag but got end of regex"
  | .flagUnknown => "unrecognized flag"
  | .nameTwice => "duplicate capture group name"
  | .nameEmpty => "empty capture group name"
  | .nameCharacter => "invalid capture group character"
  | .nameUnclosed => "unclosed capture group name"
  | .groupUnclosed => "unclosed group"
  | .groupUnopened => "unopened group"
  | .nesting limit => "exceed the maximum number of nested parentheses/brackets (" ++ toString limit ++ ")"
  | .countReversed => "invalid repetition count range, the start must be <= the end"
  | .countMissing => "repetition quantifier expects a valid decimal"
  | .countUnclosed => "unclosed counted repetition"
  | .repetitionOfNothing => "repetition operator missing expression"
  | .edgeUnclosed => "special word boundary assertion is either unclosed or contains an invalid character"
  | .edgeUnknown =>
    "unrecognized special word boundary assertion, valid choices are: start, end, start-half or end-half"
  | .edgeUnfinished =>
    "found either the beginning of a special word boundary or a bounded repetition on a \\b with an opening brace, " ++
      "but no closing brace"
  | .propertyName => "invalid Unicode character class"
  | .backReference => "backreferences are not supported"
  | .lookAround => "look-around, including look-ahead and look-behind, is not supported"
  | .letterBeyondAscii => "Unicode not allowed here"
  | .invalidText => "pattern can match invalid UTF-8"
  | .propertyUnknown => "Unicode property not found"
  | .propertyValueUnknown => "Unicode property value not found"
  | .setUnavailable => "Unicode-aware Perl class not found (make sure the unicode-perl feature is enabled)"
  | .caseUnavailable =>
    "Unicode-aware case insensitivity matching is not available (make sure the unicode-case feature is enabled)"

/-- A place in a pattern: its distance from the beginning in bytes, and its line and its column, counted from one. Only a line
feed ends a line of a pattern. -/
structure PatternPlace where
  offset : Nat
  line : Nat
  column : Nat
  deriving DecidableEq

namespace PatternPlace

def first : PatternPlace := ⟨0, 1, 1⟩

/-- The place behind a character. -/
def past (p : PatternPlace) (c : Char) : PatternPlace :=
  if c = '\n' then ⟨p.offset + c.utf8Size, p.line + 1, 1⟩ else ⟨p.offset + c.utf8Size, p.line, p.column + 1⟩

end PatternPlace

/-- A stretch of a pattern, from one place up to another. -/
structure Stretch where
  start : PatternPlace
  stop : PatternPlace
  deriving DecidableEq

namespace Stretch

def point (p : PatternPlace) : Stretch := ⟨p, p⟩

/-- Whether a stretch begins and ends in the same line. -/
def isInLine (s : Stretch) : Bool := s.start.line == s.stop.line

/-- Whether a stretch comes before another: it begins before it, or with it and does not end behind it. -/
def precedes (s t : Stretch) : Bool :=
  s.start.offset < t.start.offset || (s.start.offset == t.start.offset && s.stop.offset ≤ t.stop.offset)

/-- How many columns of a line are marked for a stretch in it, at least one. -/
def columns (s : Stretch) : Nat := max 1 (s.stop.column - s.start.column)

/-- The marks for stretches of one line, in order, when so many columns have been filled. -/
def marks (filled : Nat) : List Stretch → List Char
  | [] => []
  | s :: ss =>
    List.replicate (s.start.column - 1 - filled) ' ' ++ List.replicate s.columns '^' ++
      marks (max filled (s.start.column - 1) + s.columns) ss

/-- A stretch over several lines, in words. -/
def tell (s : Stretch) : String :=
  "on line " ++ toString s.start.line ++ " (column " ++ toString s.start.column ++ ") through line " ++
    toString s.stop.line ++ " (column " ++ toString (s.stop.column - 1) ++ ")"

end Stretch

/-- A fault of a pattern with its place, and where the thing is that is there twice. -/
structure Flaw where
  fault : PatternFault
  place : Stretch
  earlier : Option Stretch
  deriving DecidableEq

namespace Flaw

/-- A fault at a place. -/
def simple (fault : PatternFault) (place : Stretch) : Flaw := ⟨fault, place, none⟩

/-- The places to be marked, in order. -/
def places (f : Flaw) : List Stretch :=
  match f.earlier with
  | none => [f.place]
  | some s => if s.precedes f.place then [s, f.place] else [f.place, s]

/-- The lines of a pattern. A line feed at the end of it is followed by no line, and a carriage return in front of one is not
shown. -/
def lines (pattern : String) : List String :=
  let pieces := pattern.splitOn "\n"
  let whole := pieces.dropLast.map fun piece =>
    String.ofList (if piece.toList.getLast? = some '\x0D' then piece.toList.dropLast else piece.toList)
  whole ++ (pieces.getLast?.filter (fun piece => !piece.isEmpty)).toList

/-- A number filled up with spaces in front to a width. -/
def padded (width n : Nat) : String := String.ofList (List.replicate (width - (toString n).length) ' ') ++ toString n

/-- A line with its number, and its marks below. The number is left out where the width for it is zero. -/
def annotate (f : Flaw) (width number : Nat) (line : String) : String :=
  let gutter := if width = 0 then "    " else padded width number ++ ": "
  let marked := f.places.filter (fun s => s.isInLine && s.start.line == number)
  gutter ++ line ++ "\n" ++
    if marked.isEmpty then ""
    else String.ofList (List.replicate gutter.length ' ' ++ Stretch.marks 0 marked) ++ "\n"

/-- The line that sets a pattern of several lines apart. -/
def divider : String := String.ofList (List.replicate 79 '~') ++ "\n"

/-- A pattern with its fault. -/
def render (pattern : String) (f : Flaw) : String :=
  let count := (pattern.splitOn "\n").length
  let width := if count ≤ 1 then 0 else (toString count).length
  let shown := String.join ((lines pattern).zipIdx.map fun (line, i) => f.annotate width (i + 1) line)
  let told := f.places.filter (fun s => !s.isInLine)
  "regex parse error:\n" ++
    (if count ≤ 1 then shown
    else divider ++ shown ++ divider ++ if told.isEmpty then "" else "\n".intercalate (told.map Stretch.tell) ++ "\n") ++
    "error: " ++ f.fault.message

end Flaw

/-- Why there is no pattern where one is written. -/
inductive PatternError where
  /-- The pattern cannot be read. -/
  | malformed (written : String) (flaw : Flaw)
  /-- The pattern asks what there are no tables for. -/
  | undecidable
  /-- The automaton of the pattern takes more memory than there is for it, in bytes. -/
  | tooLarge (limit : Nat)
  deriving DecidableEq

/-- The wording of an error. -/
def PatternError.message : PatternError → String
  | .malformed written flaw => flaw.render written
  | .undecidable => "error building NFA"
  | .tooLarge limit => "Compiled regex exceeds size limit of " ++ toString limit ++ " bytes."

end MiniLex
