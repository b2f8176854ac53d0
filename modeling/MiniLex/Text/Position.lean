import MiniLex.Character.Class

/-!
# Places in a text

A place is known by its distance from the beginning in bytes of UTF-8 and by the line and the column it stands in, both
counted from one. Columns count characters. A carriage return with the line feed after it is one line break, and each of
the two alone is one as well. Lines and columns are counted in 32 bits: behind the last number a count starts over at zero.
-/

namespace MiniLex

/-- A place in a text. -/
structure Position where
  offset : Nat
  line : UInt32
  column : UInt32
  deriving DecidableEq

namespace Position

def first : Position := ⟨0, 1, 1⟩

/-- The place after one more character of the same line. -/
def right (p : Position) (c : Char) : Position := ⟨p.offset + c.utf8Size, p.line, p.column + 1⟩

/-- The place after a line break that takes so many bytes. -/
def nextLine (p : Position) (bytes : Nat) : Position := ⟨p.offset + bytes, p.line + 1, 1⟩

/-- The place after a stretch of text that begins at a place and does not end between the two halves of a line break. -/
def advance (p : Position) : List Char → Position
  | [] => p
  | '\r' :: '\n' :: cs => advance (p.nextLine 2) cs
  | c :: cs => if isBreak c then advance (p.nextLine 1) cs else advance (p.right c) cs

end Position

end MiniLex
