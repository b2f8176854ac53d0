import Mathlib.Algebra.Group.Nat.Defs
import MiniLex.Character.Class
import MiniLex.Token.Kind

/-!
# A grammar of the language

What a text consists of, said without saying how to find it. Between tokens stand pieces (`Piece`), and a block comment that
is never closed may stand at the very end (`OpenComment`). A token has the text of one of six patterns (`Matches`), and of
all the texts with a pattern that the rest begins with it is the longest (`LongestPrefix`). Where there is none, or where it
is a run of digits that is too large, the text is malformed (`Reads`). `Derives` puts these together from the first character
of a text to its last.
-/

namespace MiniLex
namespace Grammar

/-! ## Between tokens -/

/-- The mark at which a block comment ends. -/
def closing : List Char := ['*', '/']

/-- A piece of what stands between tokens, and the text behind it: a blank, a line comment that goes on to a line break or to
the end of the text, or a block comment that goes on to the first closing mark. -/
inductive Piece : List Char → List Char → Prop where
  | blank {c : Char} {rest : List Char} : c = ' ' ∨ c = '\t' ∨ c = '\r' ∨ c = '\n' → Piece [c] rest
  | lineComment {body rest : List Char} : (∀ c ∈ body, c ≠ '\r' ∧ c ≠ '\n') →
      (∀ c, rest.head? = some c → c = '\r' ∨ c = '\n') → Piece ('/' :: '/' :: body) rest
  | blockComment {body rest : List Char} : ¬closing <:+: body ++ ['*'] → Piece ('/' :: '*' :: (body ++ closing)) rest

/-- A block comment that is never closed. -/
def OpenComment (cs : List Char) : Prop := ∃ body, cs = '/' :: '*' :: body ∧ ¬closing <:+: body

/-- A text begins with something that stands between tokens. -/
def StartsBetween (cs : List Char) : Prop := (∃ piece rest, cs = piece ++ rest ∧ Piece piece rest) ∨ OpenComment cs

/-- Several pieces, and the text behind them. -/
inductive Gap : List Char → List Char → Prop where
  | nil {rest : List Char} : Gap [] rest
  | cons {piece gap rest : List Char} : Piece piece (gap ++ rest) → Gap gap rest → Gap (piece ++ gap) rest

/-- What stands behind the last token: pieces, and behind them perhaps a block comment that is never closed. -/
inductive LastGap : List Char → Prop where
  | closed {gap : List Char} : Gap gap [] → LastGap gap
  | opened {gap comment : List Char} : Gap gap comment → OpenComment comment → LastGap (gap ++ comment)

/-! ## The patterns of tokens -/

/-- A run of ASCII digits. -/
def Digits (cs : List Char) : Prop := cs ≠ [] ∧ ∀ c ∈ cs, c.isDigit = true

/-- What may stand between the quotes of a string literal: ordinary characters, and backslashes that each escape a carriage
return with its line feed or any one character. -/
inductive Units : List Char → Prop where
  | nil : Units []
  | plain {c : Char} {cs : List Char} : c ≠ '"' → c ≠ '\\' → c ≠ '\r' → c ≠ '\n' → Units cs → Units (c :: cs)
  | escapedBreak {cs : List Char} : Units cs → Units ('\\' :: '\r' :: '\n' :: cs)
  | escaped {c : Char} {cs : List Char} : Units cs → Units ('\\' :: c :: cs)

/-- The kind of a word: the two truth values are literals, the words of the table keywords, and all others identifiers. -/
inductive WordKind : List Char → Kind → Prop where
  | bool {word : List Char} : word = "true".toList ∨ word = "false".toList → WordKind word (.literal .bool)
  | keyword (k : Keyword) : WordKind k.spelling.toList (.keyword k)
  | identifier {word : List Char} : word ≠ "true".toList → word ≠ "false".toList →
      (∀ k : Keyword, word ≠ k.spelling.toList) → WordKind word .identifier

/-- The texts that have the pattern of a kind of tokens. -/
inductive Matches : Kind → List Char → Prop where
  | word {c : Char} {cs : List Char} {kind : Kind} : isAlphabetic c = true ∨ c = '_' →
      (∀ d ∈ cs, isAlphabetic d = true ∨ isNumeric d = true ∨ d = '_') → WordKind (c :: cs) kind → Matches kind (c :: cs)
  | int {digits : List Char} : Digits digits → Matches (.literal .int) digits
  | float {whole fraction : List Char} : Digits whole → Digits fraction →
      Matches (.literal .float) (whole ++ '.' :: fraction)
  | string {body : List Char} : Units body → Matches (.literal .string) ('"' :: (body ++ ['"']))
  | operator (o : Operator) : Matches (.operator o) o.spelling.toList
  | delimiter (d : Delimiter) : Matches (.delimiter d) d.spelling.toList

/-- A text has the pattern of some kind of tokens. -/
def HasPattern (cs : List Char) : Prop := ∃ kind, Matches kind cs

/-- Of all prefixes of a text with a property, the longest. -/
def LongestPrefix (P : List Char → Prop) (text cs : List Char) : Prop :=
  P text ∧ text <+: cs ∧ ∀ other, P other → other <+: cs → other.length ≤ text.length

/-- No prefix of a text has a pattern. -/
def Unmatched (cs : List Char) : Prop := ∀ text, HasPattern text → ¬text <+: cs

/-! ## Tokens and texts -/

/-- What is wrong with a text that begins with no pattern, how much of it is malformed, and the text behind it. -/
inductive Malformed : LexError → List Char → List Char → Prop where
  /-- A string literal goes as far as units go and breaks off in front of a line break. -/
  | brokenString {body rest : List Char} {c : Char} : LongestPrefix Units body (body ++ c :: rest) → c = '\r' ∨ c = '\n' →
      Malformed .brokenString ('"' :: body) (c :: rest)
  /-- A string literal goes on to the end of the text, with perhaps a backslash left over that escapes nothing. -/
  | endlessString {body dangling : List Char} : Units body → dangling = [] ∨ dangling = ['\\'] →
      Malformed .endlessString ('"' :: (body ++ dangling)) []
  /-- Anything else is malformed by one character. -/
  | loneAmpersand {rest : List Char} : Malformed .loneAmpersand ['&'] rest
  | lonePipe {rest : List Char} : Malformed .lonePipe ['|'] rest
  | unexpected {c : Char} {rest : List Char} : c ≠ '"' → c ≠ '&' → c ≠ '|' → Malformed (.unexpectedCharacter c) [c] rest

/-- A kind, a text of that kind where a token begins, and the text behind it: the longest text with a pattern is a token,
unless it is a run of digits that is too large, and where there is none the text is malformed. -/
inductive Reads : Kind → List Char → List Char → Prop where
  | token {kind : Kind} {text rest : List Char} : Matches kind text → LongestPrefix HasPattern text (text ++ rest) →
      (kind = .literal .int → Nat.ofDigitChars 10 text 0 < 2 ^ 64) → Reads kind text rest
  | outOfRange {text rest : List Char} : Matches (.literal .int) text → LongestPrefix HasPattern text (text ++ rest) →
      2 ^ 64 ≤ Nat.ofDigitChars 10 text 0 → Reads (.error .numberOutOfRange) text rest
  | malformed {e : LexError} {text rest : List Char} : Unmatched (text ++ rest) → Malformed e text rest →
      Reads (.error e) text rest

/-- The kinds and the texts of the tokens of a text, in order. -/
inductive Derives : List Char → List (Kind × List Char) → Prop where
  | done : Derives [] []
  | piece {piece rest : List Char} {tokens : List (Kind × List Char)} : Piece piece rest → Derives rest tokens →
      Derives (piece ++ rest) tokens
  | openComment {cs : List Char} : OpenComment cs → Derives cs []
  | token {kind : Kind} {text rest : List Char} {tokens : List (Kind × List Char)} : ¬StartsBetween (text ++ rest) →
      Reads kind text rest → Derives rest tokens → Derives (text ++ rest) ((kind, text) :: tokens)

end Grammar
end MiniLex
