import MiniLex.Listing

/-!
# Scans that check their counts

Behind the last number that 32 bits hold a count of lines or columns starts over. A program may be built so that it stops there
instead. A scan that checks its counts either gives what any scan gives or, where a count would start over, nothing at all.
Every character counts as a column before it is known to break the line, so the last column of a line can be the one of its line
break.
-/

namespace MiniLex

namespace Position

/-- The place after one more character, if its column can be counted. -/
def right? (p : Position) (c : Char) : Option Position :=
  if p.column.toNat + 1 < UInt32.size then some (p.right c) else none

/-- The place at the beginning of the next line, behind a line break whose characters have been counted, if the line can be. -/
def newline? (p : Position) : Option Position :=
  if p.line.toNat + 1 < UInt32.size then some (p.nextLine 0) else none

/-- The place after a stretch of text, if all its lines and columns can be counted. -/
def advance? (p : Position) : List Char → Option Position
  | [] => some p
  | '\r' :: '\n' :: cs => do
    let q ← p.right? '\r'
    let q ← q.right? '\n'
    let q ← q.newline?
    q.advance? cs
  | c :: cs => do
    let q ← p.right? c
    if isBreak c then
      let q ← q.newline?
      q.advance? cs
    else q.advance? cs

end Position

namespace Scanner

/-- Every token up to the end of the text, if all lines and columns on the way can be counted. -/
def scan? (s : Scanner) : Option Scan :=
  match s.position.advance? (Trivia.concat (Trivia.split s.rest).1) with
  | none => none
  | some _ =>
    match _h : s.skip.read? with
    | none => some ⟨[s.skip.atEnd.token], [], s.skip⟩
    | some step =>
      match s.skip.position.advance? step.token.lexeme.toList with
      | none => none
      | some _ => step.scanner.scan?.map (Scan.cons step)
termination_by s.rest.length
decreasing_by
  have h := length_lt_of_read? s.skip step ‹_›
  have hs := s.length_skip_le
  omega

end Scanner

/-- The tokens and the diagnostics of a source, if all its lines and columns can be counted. -/
def tokenize? (source : String) : Option Scan := (Scanner.ofSource source).scan?

/-- The listing of a source, and what becomes of the state of a sink that its diagnostics go to, if the scan comes to an end. -/
def Listing.ofSource? {σ : Type} (sink : Sink σ) (state : σ) (source : String) : Option (Listing × σ) :=
  (tokenize? source).map fun scan => (ofTokens scan.tokens, sink.feed state scan.events)

end MiniLex
