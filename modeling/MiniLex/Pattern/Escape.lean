import MiniLex.Pattern.Reader
import MiniLex.Pattern.Written

/-!
# Escape sequences

A backslash and what is behind it stand for one character, for a set of characters, or for a test at a gap. What is no
letter and no digit of ASCII stands for itself behind a backslash, the angle brackets apart. A character may be written as its
code point, in two, four or eight hexadecimal digits or in any number of them in braces.
-/

namespace MiniLex

namespace PatternReader

/-- Whether a character is a hexadecimal digit. -/
def isHexDigit (c : Char) : Bool := NamedSet.xdigit.set.contains c

/-- The value of hexadecimal digits. -/
def hexValue (digits : List Char) : Nat :=
  digits.foldl
    (fun n c => 16 * n + if c.isDigit then c.toNat - '0'.toNat else c.toLower.toNat - 'a'.toNat + 10)
    0

/-- The character with a code point in hexadecimal digits, which are written in a stretch. -/
def ofCodePoint (digits : List Char) (place : Stretch) : Except Flaw Char :=
  let n := hexValue digits
  if h : n.isValidChar then .ok (Char.ofNatAux n h) else .error (.simple .hexOutOfRange place)

/-- Reads as many hexadecimal digits as a number says. -/
def hexDigits (r : PatternReader) : Nat → Except Flaw (List Char × PatternReader)
  | 0 => .ok ([], r)
  | n + 1 =>
    match r.head? with
    | none => .error (.simple .escapeUnfinished r.here)
    | some c =>
      if isHexDigit c then (r.next.hexDigits n).map (fun (digits, s) => (c :: digits, s))
      else .error (.simple .hexDigit r.nextPlace)

/-- The character whose code point is written behind a letter that says in how many digits. -/
def codePoint (r : PatternReader) (letter : Char) : Except Flaw (WrittenChar × PatternReader) := do
  let r := r.next
  if r.isAtEnd then throw (.simple .escapeUnfinished r.here)
  let start := r.position
  if r.head? = some '{' then
    let (digits, s) := r.next.collect isHexDigit
    match s.head? with
    | none => throw (.simple .escapeUnfinished (s.since start))
    | some '}' =>
      if digits.isEmpty then throw (.simple .hexEmpty (s.next.since start))
      let c ← ofCodePoint digits ⟨r.nextPlace.stop, s.position⟩
      return (⟨c, false⟩, s.next)
    | some _ => throw (.simple .hexDigit s.nextPlace)
  else
    let (digits, s) ← r.hexDigits (if letter = 'x' then 2 else if letter = 'u' then 4 else 8)
    let c ← ofCodePoint digits (s.since start)
    return (⟨c, letter = 'x'⟩, s)

/-- The name of a property: one letter, or a name in braces that may have a value. -/
def propertyName (r : PatternReader) : Except Flaw (PropertyName × PatternReader) :=
  let r := r.next
  match r.head? with
  | none => .error (.simple .escapeUnfinished r.here)
  | some '{' =>
    let (name, s) := r.next.collect (· != '}')
    if s.isAtEnd then .error (.simple .escapeUnfinished s.here)
    else .ok (if name.any (fun c => c == ':' || c == '=') then .valued else .plain (String.ofList name), s.bump)
  | some c =>
    if c = '\\' then .error (.simple .propertyName r.nextPlace) else .ok (.plain (String.singleton c), r.next)

/-- Whether a character may be part of the name of the edge of a word. -/
def isEdgeName (c : Char) : Bool := NamedSet.alpha.set.contains c || c == '-'

/-- The edge of a word that a name stands for. -/
def edge? : String → Option WordEdge
  | "start" => some .start
  | "end" => some .stop
  | "start-half" => some .startHalf
  | "end-half" => some .stopHalf
  | _ => none

/-- The edge of a word that braces in front of the reader name, unless what is in them cannot be a name. The escape sequence
begins at a place in front of them. -/
def namedEdge (r : PatternReader) (start : PatternPlace) : Except Flaw (WordEdge × PatternReader) :=
  let s := r.next
  match s.head? with
  | none => .error (.simple .edgeUnfinished (s.since start))
  | some c =>
    if !isEdgeName c then .ok (.boundary, r)
    else
      let (name, e) := s.collect isEdgeName
      if e.head? = some '}' then
        match edge? (String.ofList name) with
        | some edge => .ok (edge, e.bump)
        | none => .error (.simple .edgeUnknown ⟨s.position, e.position⟩)
      else .error (.simple .edgeUnclosed ⟨r.position, e.position⟩)

/-- The control character that a letter stands for. -/
def control? : Char → Option Char
  | 'a' => some '\x07'
  | 'f' => some '\x0C'
  | 't' => some '\t'
  | 'n' => some '\n'
  | 'r' => some '\x0D'
  | 'v' => some '\x0B'
  | _ => none

/-- The characters that a letter stands for, or all others. -/
def shorthand? : Char → Option Atom
  | 'd' => some (.shorthand .digit false)
  | 's' => some (.shorthand .space false)
  | 'w' => some (.shorthand .word false)
  | 'D' => some (.shorthand .digit true)
  | 'S' => some (.shorthand .space true)
  | 'W' => some (.shorthand .word true)
  | _ => none

/-- The test at a gap that a character stands for. -/
def gap? : Char → Option WrittenGap
  | 'A' => some .textStart
  | 'z' => some .textEnd
  | 'B' => some (.word .inside)
  | '<' => some (.word .start)
  | '>' => some (.word .stop)
  | _ => none

/-- Whether a character stands for itself behind a backslash. -/
def isPlainEscape (c : Char) : Bool := c.toNat < 128 && !c.isAlphanum && c != '<' && c != '>'

/-- What the backslash in front of the reader and the characters behind it stand for. -/
def escape (r : PatternReader) : Except Flaw (Atom × PatternReader) := do
  let start := r.position
  let r := r.bump
  match r.head? with
  | none => throw (.simple .escapeUnfinished (r.since start))
  | some c =>
    if c.isDigit then throw (.simple .backReference ⟨start, r.nextPlace.stop⟩)
    if c = 'x' || c = 'u' || c = 'U' then
      let (c, s) ← r.codePoint c
      return (.char c, s)
    if c = 'p' || c = 'P' then
      let (name, s) ← r.propertyName
      return (.property name, s)
    let s := r.bump
    if c = 'b' then
      if s.head? = some '{' then
        let (edge, e) ← s.namedEdge start
        return (.gap (.word edge), e)
      return (.gap (.word .boundary), s)
    if isPlainEscape c then return (.char ⟨c, false⟩, s)
    match control? c, shorthand? c, gap? c with
    | some c, _, _ => return (.char ⟨c, false⟩, s)
    | _, some set, _ => return (set, s)
    | _, _, some gap => return (.gap gap, s)
    | none, none, none => throw (.simple .escapeUnknown (s.since start))

end PatternReader

end MiniLex
