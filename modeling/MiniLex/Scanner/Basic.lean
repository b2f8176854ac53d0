import MiniLex.Diagnostic.Basic
import MiniLex.Lexeme.Basic
import MiniLex.Lexeme.Trivia
import MiniLex.Text.Bytes
import MiniLex.Text.Position

/-!
# The scanner

A scanner stands at a place in a source text. To give the next token it goes past the blanks and comments in front of it and
reads the lexeme there; where none is left it gives the end of the text, as often as it is asked. Every error token comes
with one diagnostic. A byte-order mark at the very beginning is not part of the text proper: it is skipped, and the first
column is behind it.

Scanning to the end (`Scanner.scan`) takes tokens one by one until the end of the text, which is the last one, and it ends
because every other token takes at least one character (`Scanner.length_lt_of_read?`).
-/

namespace MiniLex

/-- A scanner: the source as it was given, the text that is still to be read, and the place where that begins. -/
structure Scanner where
  source : String
  rest : List Char
  position : Position
  deriving DecidableEq

/-- What a scanner gives: a token, the diagnostic that goes with it if it is malformed, and the scanner behind it. -/
structure Step where
  token : Token
  diagnostic : Option Diagnostic
  scanner : Scanner
  deriving DecidableEq

/-- What a scanner gives until the end of the text: all tokens, all diagnostics, and the scanner at the end. -/
structure Scan where
  tokens : List Token
  diagnostics : List Diagnostic
  scanner : Scanner
  deriving DecidableEq

/-- A step in front of a scan. -/
def Scan.cons (step : Step) (s : Scan) : Scan :=
  ⟨step.token :: s.tokens, step.diagnostic.toList ++ s.diagnostics, s.scanner⟩

/-- The token between two places. -/
def Lexeme.toToken (l : Lexeme) (start stop : Position) : Token :=
  ⟨l.kind, String.ofList l.text, start.line, start.column, ⟨start.offset, stop.offset⟩, l.value⟩

/-- The end of the text, at a place. -/
def Token.eof (p : Position) : Token := ⟨.eof, "", p.line, p.column, .point p.offset, none⟩

/-- The diagnostic of an error in the text between two places, with the text that follows. What shows only at the end is
reported there and covers the next character, if there is one; anything else covers the whole of it. -/
def LexError.diagnose (e : LexError) (start stop : Position) (rest : List Char) : Diagnostic :=
  if e.showsAtEnd then ⟨e, stop.line, stop.column, ⟨stop.offset, stop.offset + byteLength (rest.take 1)⟩⟩
  else ⟨e, start.line, start.column, ⟨start.offset, stop.offset⟩⟩

namespace Scanner

/-- The mark that a text may begin with without its being part of the text. -/
def byteOrderMark : Char := '\uFEFF'

/-- The scanner at the beginning of a source. -/
def ofSource (source : String) : Scanner :=
  let text := source.toList
  if text.head? = some byteOrderMark then ⟨source, text.tail, ⟨byteOrderMark.utf8Size, 1, 1⟩⟩
  else ⟨source, text, .first⟩

def isAtEnd (s : Scanner) : Bool := s.rest.isEmpty

/-- The scanner behind the blanks and comments in front of it. -/
def skip (s : Scanner) : Scanner :=
  let (pieces, rest) := Trivia.split s.rest
  ⟨s.source, rest, s.position.advance (Trivia.concat pieces)⟩

/-- Reads the token that begins where the scanner stands, if any text is left. -/
def read? (s : Scanner) : Option Step :=
  match Lexeme.read? s.rest with
  | none => none
  | some (l, rest) =>
    let stop := s.position.advance l.text
    some ⟨l.toToken s.position stop, l.kind.error?.map (fun e => e.diagnose s.position stop rest), s.source, rest, stop⟩

/-- The end of the text, where nothing but blanks and comments was left. -/
def atEnd (s : Scanner) : Step := ⟨.eof s.position, none, s⟩

def next (s : Scanner) : Step := s.skip.read?.getD s.skip.atEnd

theorem length_skip_le (s : Scanner) : s.skip.rest.length ≤ s.rest.length := by
  have h := Trivia.concat_append_split s.rest
  have hl := congrArg List.length h
  rw [List.length_append] at hl
  simp only [skip]
  omega

theorem length_lt_of_read? (s : Scanner) (step : Step) (h : s.read? = some step) :
    step.scanner.rest.length < s.rest.length := by
  unfold read? at h
  split at h
  · simp at h
  · next l rest hl =>
    obtain rfl := Option.some.inj h
    exact Lexeme.length_lt_of_read? s.rest rest l hl

/-- Every token up to the end of the text. -/
def scan (s : Scanner) : Scan :=
  match _h : s.skip.read? with
  | none => ⟨[s.skip.atEnd.token], [], s.skip⟩
  | some step => .cons step step.scanner.scan
termination_by s.rest.length
decreasing_by
  have h := length_lt_of_read? s.skip step ‹_›
  have hs := s.length_skip_le
  omega

end Scanner

/-- The tokens and the diagnostics of a source. -/
def tokenize (source : String) : Scan := (Scanner.ofSource source).scan

end MiniLex
