import MiniLex.Scanner.Basic

/-!
# Cursors

A cursor walks over a sequence of tokens for a parser, with as much lookahead as is asked for. The sequence always ends in
an end of the text; one that does not is given one, behind its last token. Once the cursor stands on an end of the text it
stays there, and looking past the last token shows the last token.

A cursor is held as its token with the tokens in front of it, nearest first, and those behind it. Where error tokens are
asked for, what is wrong with them does not matter (`Kind.agrees`).
-/

namespace MiniLex

/-- A place in a sequence of tokens. -/
structure Cursor where
  /-- The tokens already taken, the last one first. -/
  taken : List Token
  /-- The token that the cursor stands on. -/
  current : Token
  /-- The tokens behind the current one. -/
  ahead : List Token
  deriving DecidableEq

/-- A token that was asked for and not found. -/
structure Mismatch where
  expected : Kind
  found : Kind
  line : UInt32
  column : UInt32
  deriving DecidableEq

/-- The wording of a mismatch. -/
def Mismatch.message (m : Mismatch) : String :=
  "expected " ++ m.expected.display ++ ", found " ++ m.found.display ++ " at " ++ toString m.line.toNat ++ ":" ++
    toString m.column.toNat

namespace Cursor

/-- The end of the text behind a last token: as many columns on as its lexeme has characters, or the very beginning. -/
def eofBehind : Option Token → Token
  | none => .eof .first
  | some last => .eof ⟨last.span.stop, last.line, last.column + .ofNat last.lexeme.length⟩

/-- A sequence of tokens with an end of the text behind it, where it does not end in one. -/
def terminated (tokens : List Token) : List Token :=
  if tokens.getLast?.any Token.isEof then tokens else tokens ++ [eofBehind tokens.getLast?]

/-- The cursor at the beginning of a sequence of tokens. -/
def ofTokens (tokens : List Token) : Cursor :=
  match terminated tokens with
  | [] => ⟨[], eofBehind none, []⟩
  | t :: ts => ⟨[], t, ts⟩

/-- All tokens of the sequence. -/
def tokens (c : Cursor) : List Token := c.taken.reverse ++ c.current :: c.ahead

/-- The token so many behind the current one, or the last one if there are not so many. -/
def peekAt (c : Cursor) (n : Nat) : Token := ((c.current :: c.ahead).drop n).headD (c.ahead.getLastD c.current)

def peek (c : Cursor) : Token := c.peekAt 0

/-- The cursor on the next token, unless it stands on an end of the text. -/
def advance (c : Cursor) : Cursor :=
  if c.current.isEof then c
  else
    match c.ahead with
    | [] => c
    | t :: ts => ⟨c.current :: c.taken, t, ts⟩

def next (c : Cursor) : Token × Cursor := (c.current, c.advance)

/-- Whether the current token is of a kind. -/
def check (c : Cursor) (kind : Kind) : Bool := c.current.kind.agrees kind

/-- Takes the current token if it is of a kind, and says whether it was. -/
def accept (c : Cursor) (kind : Kind) : Bool × Cursor := if c.check kind then (true, c.advance) else (false, c)

/-- Takes the current token if it is of a kind, and says what was found if it was not. -/
def expect (c : Cursor) (kind : Kind) : Except Mismatch Token × Cursor :=
  if c.check kind then (.ok c.current, c.advance)
  else (.error ⟨kind, c.current.kind, c.current.line, c.current.column⟩, c)

/-- Whether the cursor stands on an end of the text. -/
def isAtEnd (c : Cursor) : Bool := c.current.isEof

/-- Whether a token of the sequence is malformed. -/
def hasErrors (c : Cursor) : Bool := c.tokens.any Token.isError

/-- What a parser may ask of a cursor. -/
inductive Query where
  | peek
  | peekAt (n : Nat)
  | next
  | check (kind : Kind)
  | accept (kind : Kind)
  | expect (kind : Kind)
  | isAtEnd
  | hasErrors
  | tokens
  deriving DecidableEq

/-- What a cursor replies. -/
inductive Reply where
  | token (t : Token)
  | tokens (ts : List Token)
  | answer (b : Bool)
  | mismatch (m : Mismatch)
  deriving DecidableEq

/-- Answers what a parser asks. -/
def ask (c : Cursor) : Query → Reply × Cursor
  | .peek => (.token c.peek, c)
  | .peekAt n => (.token (c.peekAt n), c)
  | .next => (.token c.next.1, c.next.2)
  | .check kind => (.answer (c.check kind), c)
  | .accept kind => (.answer (c.accept kind).1, (c.accept kind).2)
  | .expect kind =>
    match c.expect kind with
    | (.ok t, c') => (.token t, c')
    | (.error m, c') => (.mismatch m, c')
  | .isAtEnd => (.answer c.isAtEnd, c)
  | .hasErrors => (.answer c.hasErrors, c)
  | .tokens => (.tokens c.tokens, c)

/-- Answers several questions, one after the other. -/
def converse (c : Cursor) : List Query → List Reply
  | [] => []
  | q :: queries => (c.ask q).1 :: converse (c.ask q).2 queries

end Cursor

end MiniLex
