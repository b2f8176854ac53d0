/-!
# Control sequences in a text

A text may hold sequences of characters that steer a terminal instead of being shown on it. They begin with an escape
character, and the one behind it says what they are: a control sequence, a device control string, an operating system
command, a character string of another kind, or nothing more than the two characters. Where a text goes to something that is
no terminal, the sequences are left out, and so is every control character that is not white space (`plainText`).

White space inside a sequence that is neither a string nor a command is shown all the same. The text behind it is then shown
up to the next control character, behind which the sequence goes on. A character outside ASCII ends such a sequence.
-/

namespace MiniLex

/-- How far a sequence that steers a terminal has been read. -/
inductive ControlSequence where
  /-- Up to the escape character. -/
  | escape
  /-- Up to characters that select one of several sets of final characters. -/
  | intermediates
  /-- Into a control sequence, which a letter ends. -/
  | control
  /-- Up to the beginning of a device control string. -/
  | device
  /-- Up to the parameters of a device control string. -/
  | deviceParameters
  /-- Up to the intermediate characters of a device control string. -/
  | deviceIntermediates
  /-- Into the text of a string. -/
  | string
  /-- Into an operating system command, which a bell ends. -/
  | command
  deriving DecidableEq

namespace ControlSequence

/-- Whether white space inside the sequence is shown. -/
def showsWhiteSpace : ControlSequence → Bool
  | .escape | .intermediates | .control => true
  | _ => false

/-- Whether the encoding of a character has the byte that ends a string. -/
def endsString (c : Char) : Bool := (String.utf8EncodeChar c).contains 0x9C

/-- What has been read with one more character, unless the sequence ends with it. -/
def step (s : ControlSequence) (c : Char) : Option ControlSequence :=
  let n := c.toNat
  match s with
  | .escape =>
    if n < 0x20 || 0x7F ≤ n then some .escape
    else if n < 0x30 then some .intermediates
    else if c = '[' then some .control
    else if c = ']' then some .command
    else if c = 'P' then some .device
    else if c = 'X' || c = '^' || c = '_' then some .string
    else none
  | .intermediates => if n < 0x30 || 0x7F ≤ n then some .intermediates else none
  | .control => if n < 0x40 || 0x7F ≤ n then some .control else none
  | .device =>
    if n < 0x20 || 0x7F ≤ n then some .device
    else if n < 0x30 then some .deviceIntermediates
    else if n < 0x40 then some .deviceParameters
    else some .string
  | .deviceParameters =>
    if n < 0x20 || 0x7F ≤ n then some .deviceParameters
    else if n < 0x30 then some .deviceIntermediates
    else if n < 0x3C then some .deviceParameters
    else some .string
  | .deviceIntermediates => if n < 0x30 || 0x7F ≤ n then some .deviceIntermediates else some .string
  | .string => if endsString c then none else some .string
  | .command => if n = 0x07 then none else some .command

end ControlSequence

/-- Where a reader of a text stands. -/
inductive TextReader where
  /-- In text, possibly behind white space that broke into a sequence. -/
  | inText (broken : Option ControlSequence)
  /-- In a sequence. -/
  | inSequence (s : ControlSequence)
  deriving DecidableEq

namespace TextReader

/-- Whether a character is white space of ASCII other than the space. -/
def isSpacing (c : Char) : Bool := c == '\t' || c == '\n' || c == '\x0C' || c == '\x0D'

/-- Whether a character is shown where it stands in text: white space, and what is no control character of ASCII. -/
def isShown (c : Char) : Bool := isSpacing c || (0x20 ≤ c.toNat && c.toNat != 0x7F)

/-- Whether a character is shown. -/
def shows : TextReader → Char → Bool
  | .inText _, c => isShown c
  | .inSequence s, c => s.showsWhiteSpace && isSpacing c

/-- Where the reader stands behind a character that is shown. -/
def behindShown : TextReader → Char → TextReader
  | .inText broken, c => .inText (if c.toNat < 0x80 then broken else none)
  | .inSequence s, _ => .inText (some s)

/-- Where the reader stands behind a character that is not shown. An escape character begins a sequence wherever it stands,
and two control characters cancel one. -/
def behindHidden (r : TextReader) (c : Char) : TextReader :=
  if c = '\x1B' then .inSequence .escape
  else if c = '\x18' || c = '\x1A' then .inText none
  else
    match r with
    | .inText none => .inText none
    | .inText (some s) => .inSequence s
    | .inSequence s => ((s.step c).map TextReader.inSequence).getD (.inText none)

/-- The characters of a text that are shown, from where the reader stands on. -/
def read (r : TextReader) : List Char → List Char
  | [] => []
  | c :: cs => if r.shows c then c :: (r.behindShown c).read cs else (r.behindHidden c).read cs

end TextReader

/-- A text without the characters that steer a terminal. -/
def plainText (s : String) : String := String.ofList ((TextReader.inText none).read s.toList)

end MiniLex
