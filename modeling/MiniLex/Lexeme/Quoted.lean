import MiniLex.Character.Class

/-!
# String literals

A string literal goes on behind its opening quote to the first quote that no backslash escapes. A backslash escapes the
character behind it, or a carriage return together with its line feed; a line break that is not escaped breaks the string
off, and so does the end of the text. A backslash that is the last character of the text escapes nothing.

The value of a literal is its text between the quotes with `\n`, `\t`, `\"` and `\\` replaced by what they denote. Every
other escape stands for itself, backslash included.
-/

namespace MiniLex

namespace Quoted

/-- How a string literal ends. -/
inductive Ending where
  /-- The literal ends with a quote. -/
  | quote
  /-- The literal is broken off in front of a line break. -/
  | lineBreak
  /-- The literal goes on to the end of the text. -/
  | endOfText
  deriving DecidableEq

/-- The text behind an opening quote: what belongs to the literal, how it ends, and the text behind it. The closing quote
belongs to neither of the two texts, and a line break that ends the literal to the second. -/
structure Split where
  body : List Char
  ending : Ending
  rest : List Char
  deriving DecidableEq

/-- More text in front of a body. -/
def Split.cons (cs : List Char) (s : Split) : Split := ⟨cs ++ s.body, s.ending, s.rest⟩

/-- Splits the text behind an opening quote. -/
def split : List Char → Split
  | [] => ⟨[], .endOfText, []⟩
  | '"' :: cs => ⟨[], .quote, cs⟩
  | '\\' :: '\r' :: '\n' :: cs => (split cs).cons ['\\', '\r', '\n']
  | '\\' :: c :: cs => (split cs).cons ['\\', c]
  | c :: cs => if isBreak c then ⟨[], .lineBreak, c :: cs⟩ else (split cs).cons [c]

/-- The closing quote, where there is one. -/
def Ending.text : Ending → List Char
  | .quote => ['"']
  | .lineBreak | .endOfText => []

/-- The value that the text between the quotes denotes. -/
def decode : List Char → List Char
  | [] => []
  | '\\' :: 'n' :: cs => '\n' :: decode cs
  | '\\' :: 't' :: cs => '\t' :: decode cs
  | '\\' :: '"' :: cs => '"' :: decode cs
  | '\\' :: '\\' :: cs => '\\' :: decode cs
  | c :: cs => c :: decode cs

/-- The text between the quotes that denotes a value. A carriage return can only stand behind a backslash, and the two are
written as they are. -/
def encode : List Char → List Char
  | [] => []
  | '\\' :: '\r' :: cs => '\\' :: '\r' :: encode cs
  | '\\' :: cs => '\\' :: '\\' :: encode cs
  | '"' :: cs => '\\' :: '"' :: encode cs
  | '\n' :: cs => '\\' :: 'n' :: encode cs
  | '\t' :: cs => '\\' :: 't' :: encode cs
  | c :: cs => c :: encode cs

/-- The body, the closing quote and the text behind it make up what is split. -/
theorem body_append_split (cs : List Char) :
    (split cs).body ++ (split cs).ending.text ++ (split cs).rest = cs := by
  fun_induction split cs with
  | case1 => rfl
  | case2 => rfl
  | case3 cs ih => simpa [Split.cons] using ih
  | case4 c cs _ ih => simpa [Split.cons] using ih
  | case5 => rfl
  | case6 c cs _ _ _ _ ih => simpa [Split.cons] using ih

end Quoted

end MiniLex
