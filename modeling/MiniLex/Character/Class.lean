import MiniLex.Character.Alphabetic
import MiniLex.Character.Numeric

/-!
# The classes of characters that the language distinguishes

Blanks and line breaks stand between tokens, a word begins with a letter or an underscore and goes on with letters,
numbers and underscores, and a number is written in ASCII digits alone. A numeric character outside ASCII may be part of a
word but begins no token. The digits of a number are those of `Char.isDigit`.
-/

namespace MiniLex

/-- Whether a character ends a line: a line feed or a carriage return. -/
def isBreak (c : Char) : Bool := c == '\n' || c == '\r'

/-- Whether a character is a blank: a space, a tab or a line break. -/
def isBlank (c : Char) : Bool := c == ' ' || c == '\t' || isBreak c

/-- Whether a word may begin with the character. -/
def isWordStart (c : Char) : Bool := isAlphabetic c || c == '_'

/-- Whether a word may go on with the character. -/
def isWordPart (c : Char) : Bool := isAlphabetic c || isNumeric c || c == '_'

/-- What begins a word may also go on with it. -/
theorem isWordPart_of_isWordStart (c : Char) (h : isWordStart c = true) : isWordPart c = true := by
  simp only [isWordStart, isWordPart, Bool.or_eq_true] at h ⊢
  rcases h with h | h
  · exact Or.inl (Or.inl h)
  · exact Or.inr h

end MiniLex
