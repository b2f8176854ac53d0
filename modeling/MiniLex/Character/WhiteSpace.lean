import MiniLex.Character.Ranges

/-!
# White space

The property White_Space of Unicode 17.0. It says how far a displayed source line is indented; what separates tokens is the
smaller class `isBlank`.
-/

namespace MiniLex

/-- The code points that are white space. -/
def whiteSpaceRanges : List (Nat × Nat) :=
  [(0x0009, 0x000D), (0x0020, 0x0020), (0x0085, 0x0085), (0x00A0, 0x00A0), (0x1680, 0x1680), (0x2000, 0x200A),
   (0x2028, 0x2029), (0x202F, 0x202F), (0x205F, 0x205F), (0x3000, 0x3000)]

/-- Whether a character is white space. -/
def isWhiteSpace (c : Char) : Bool := inRanges whiteSpaceRanges c.toNat

end MiniLex
