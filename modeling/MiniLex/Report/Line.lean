import MiniLex.Character.WhiteSpace
import MiniLex.Character.Width
import MiniLex.Report.Ink
import MiniLex.Text.Bytes

/-!
# The lines of a source as a report shows them

A report splits a source at its line feeds only. It shows a line without the line break and the null characters at its end,
with tabs filled up to the next multiple of four columns, and it finds its marks by the columns that the characters take.
-/

namespace MiniLex

/-- A line of a source: its number, the offset of its first byte, and its text up to and including its line feed. -/
structure SourceLine where
  number : Nat
  start : Nat
  text : List Char
  deriving DecidableEq

/-- A character of a line that is shown: the byte of the line it begins at and the columns it takes. -/
structure Cell where
  char : Char
  start : Nat
  width : Nat
  deriving DecidableEq

/-- Splits a text behind each of its line feeds. The last piece has none and may be empty. -/
def splitLines : List Char → List (List Char)
  | [] => [[]]
  | c :: cs =>
    if c = '\n' then [c] :: splitLines cs
    else
      match splitLines cs with
      | [] => [[c]]
      | l :: ls => (c :: l) :: ls

namespace SourceLine

/-- Numbers the pieces of a text, from a number and an offset on. -/
def enumerate (number start : Nat) : List (List Char) → List SourceLine
  | [] => []
  | l :: ls => ⟨number, start, l⟩ :: enumerate (number + 1) (start + byteLength l) ls

def ofText (text : List Char) : List SourceLine := enumerate 1 0 (splitLines text)

/-- The line that an offset stands in: the last one that begins at or before it. -/
def containing (lines : List SourceLine) (offset : Nat) : SourceLine :=
  (lines.takeWhile (fun l => l.start ≤ offset)).getLastD ⟨1, 0, []⟩

/-- The number of characters of a text that end within so many bytes. -/
def charactersWithin : List Char → Nat → Nat
  | [], _ => 0
  | c :: cs, bytes => if c.utf8Size ≤ bytes then charactersWithin cs (bytes - c.utf8Size) + 1 else 0

/-- The column of an offset in a line, counted from one; behind the end of the line it is that of the end. -/
def column (l : SourceLine) (offset : Nat) : Nat := charactersWithin l.text (offset - l.start) + 1

/-- The part of a line that is shown. -/
def shown (l : SourceLine) : List Char :=
  (l.text.reverse.dropWhile (fun c => c == '\n' || c == '\r' || c == '\x00')).reverse

/-- The number of bytes that the part that is shown is indented by. -/
def indentation (l : SourceLine) : Nat := byteLength (l.shown.takeWhile isWhiteSpace)

end SourceLine

namespace Cell

/-- The distance between two tab stops. -/
def tabWidth : Nat := 4

/-- Lays out characters from a byte and a column of a line on. -/
def layOut (start column : Nat) : List Char → List Cell
  | [] => []
  | c :: cs =>
    let width := if c = '\t' then tabWidth - column % tabWidth else columnWidth c
    ⟨c, start, width⟩ :: layOut (start + c.utf8Size) (column + width) cs

/-- A character as it is shown. -/
def text (c : Cell) : List Char := if c.char = '\t' then List.replicate c.width ' ' else [c.char]

/-- The columns that the cells of a line take up to where a condition on their place no longer holds. -/
def widthWhile (condition : Nat → Bool) (cells : List Cell) : Nat :=
  (cells.takeWhile (fun c => condition c.start)).foldl (fun columns c => columns + c.width) 0

/-- Whether a character and a range of bytes have a byte in common. -/
def overlaps (c : Cell) (start stop : Nat) : Bool := max c.start start < min (c.start + c.char.utf8Size) stop

/-- Draws cells one after the other. Each run of marked ones is in a style; `inside` says whether such a run goes on. -/
def ink (style : Style) (marked : Cell → Bool) (draw : Cell → List Char) (inside : Bool) : List Cell → List Ink
  | [] => if inside then [.reset] else []
  | c :: cs =>
    let turn := if marked c && !inside then [.style style] else if !marked c && inside then [.reset] else []
    turn ++ .text (String.ofList (draw c)) :: ink style marked draw (marked c) cs

end Cell

namespace SourceLine

/-- The cells of the part of a line that is shown. -/
def cells (l : SourceLine) : List Cell := Cell.layOut 0 0 l.shown

/-- The line as it is shown, with its marked characters in a style. -/
def ink (l : SourceLine) (style : Style) (marked : Cell → Bool) : List Ink := Cell.ink style marked Cell.text false l.cells

/-- The cell behind the part that is shown, where a mark for the end of the line can stand. -/
def endCell (l : SourceLine) : Cell := ⟨'\x00', byteLength l.shown, 1⟩

/-- Carets under the characters that a range of bytes of the line overlaps, behind spaces for those in front of it. A
character that takes no column has none. -/
def carets (l : SourceLine) (style : Style) (start stop : Nat) : List Ink :=
  let draw (c : Cell) : List Char :=
    if c.overlaps start stop then List.replicate c.width '^'
    else if c.start < stop then List.replicate c.width ' '
    else []
  Cell.ink style (fun c => c.overlaps start stop) draw false (l.cells ++ [l.endCell])

end SourceLine

end MiniLex
