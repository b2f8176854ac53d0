import MiniLex.Proofs.Tiling
import MiniLex.Scanner.Session

/-!
# A head over the bytes of a source

A scanner has the text that is still to be read. A head has only an offset into the bytes of its source, and looks at the text
through slices: from the cursor to the end, from a mark to the cursor, and, for a string literal, what is between its quotes. A
slice that does not lie in its text, or is cut between the bytes of one character, cannot be taken, and then the whole move
fails. So does a loop that would not come to an end, because one of its rounds leaves the cursor where it is (`Head.loop`). Every
place where the cursor is put, every mark and every slice is recorded (`Touch`).

The moves are those of a scanner that is written by hand: look at the next character or the one behind it, take it, take it if it
is the expected one, take characters as long as they are of a class, and on top of these the tokens, the run to the end and the
calls of a session.
-/

namespace MiniLex

/-- What a head does with the bytes of its source. -/
inductive Touch where
  /-- The cursor is put to an offset. -/
  | cursor (offset : Nat)
  /-- The cursor is marked at an offset. -/
  | mark (offset : Nat)
  /-- A stretch of the source is looked at. -/
  | slice (span : Span)
  /-- A stretch of a string literal is looked at. -/
  | unquote (lexeme : String) (span : Span)
  deriving DecidableEq

/-- A head over a source: its cursor, as an offset in bytes with a line and a column, and what it has done, the latest first. -/
structure Head where
  source : String
  cursor : Position
  touches : List Touch
  deriving DecidableEq

/-- What a head does to come to a result, unless it fails. -/
abbrev Move (α : Type) : Type := StateT Head Option α

instance (s : Span) (text : String) : Decidable (s.Fits text) :=
  inferInstanceAs (Decidable (s.start ≤ s.stop ∧ s.stop ≤ text.utf8ByteSize ∧ (String.Pos.Raw.mk s.start).IsValid text ∧
    (String.Pos.Raw.mk s.stop).IsValid text))

namespace Head

/-- The head at the beginning of a source, behind its mark. -/
def ofSource (source : String) : Head :=
  let offset := if source.toList.head? = some Scanner.byteOrderMark then Scanner.byteOrderMark.utf8Size else 0
  ⟨source, ⟨offset, 1, 1⟩, [.cursor offset]⟩

/-! ## Bytes -/

def record (touch : Touch) : Move Unit := modify (fun h => { h with touches := touch :: h.touches })

/-- Puts the cursor to a place. -/
def moveTo (p : Position) : Move Unit := do
  record (.cursor p.offset)
  modify (fun h => { h with cursor := p })

/-- Marks the place of the cursor. -/
def mark : Move Position := do
  let h ← get
  record (.mark h.cursor.offset)
  return h.cursor

/-- Takes a stretch out of a text, if it can be taken. -/
def cut (text : String) (span : Span) : Move String := if span.Fits text then return span.slice text else failure

def slice (span : Span) : Move String := do
  let h ← get
  record (.slice span)
  cut h.source span

/-- A string literal without its first and its last byte. -/
def unquote (lexeme : String) : Move String := do
  let span : Span := ⟨1, lexeme.utf8ByteSize - 1⟩
  record (.unquote lexeme span)
  cut lexeme span

/-- The text from a mark up to the cursor. -/
def textFrom (start : Position) : Move String := do
  let h ← get
  slice ⟨start.offset, h.cursor.offset⟩

/-- The number of bytes behind the cursor. -/
def left (h : Head) : Nat := h.source.utf8ByteSize - h.cursor.offset

/-- Rounds, one after the other, until one of them comes to a result. Each of the others hands something to the next one, and
has to take the cursor on. -/
def loop {α β : Type} (round : β → Move (β ⊕ α)) (b : β) (h : Head) : Option (α × Head) :=
  match (round b).run h with
  | none => none
  | some (.inr a, h') => some (a, h')
  | some (.inl b', h') => if h'.left < h.left then loop round b' h' else none
termination_by h.left

/-! ## Characters -/

/-- The text behind the cursor. -/
def ahead : Move (List Char) := do
  let h ← get
  let text ← slice ⟨h.cursor.offset, h.source.utf8ByteSize⟩
  return text.toList

def peek : Move (Option Char) := do
  let cs ← ahead
  return cs.head?

/-- The character behind the next one. -/
def peekNext : Move (Option Char) := do
  let cs ← ahead
  return cs.tail.head?

/-- Takes the next character. -/
def bump : Move (Option Char) := do
  let next? ← peek
  match next? with
  | none => return none
  | some c =>
    let h ← get
    moveTo (h.cursor.right c)
    return some c

/-- Takes the next character if it is the expected one, and says whether it was. -/
def eat (expected : Char) : Move Bool := do
  let next? ← peek
  if next? = some expected then
    let _ ← bump
    return true
  else return false

/-- Takes the next character if it is of a class. -/
def eatRound (p : Char → Bool) : Move (Unit ⊕ Unit) := do
  let next? ← peek
  if next?.any p then
    let _ ← bump
    return .inl ()
  else return .inr ()

/-- Takes characters as long as they are of a class. -/
def eatWhile (p : Char → Bool) : Move Unit := loop (fun _ => eatRound p) ()

/-- Takes the line feed that belongs to a carriage return. -/
def lineFeed (c : Char) : Move Bool := if c = '\r' then eat '\n' else return false

/-- Goes on to the next line, behind a line break of which the first character has just been taken. -/
def newline (c : Char) : Move Unit := do
  let _ ← lineFeed c
  let h ← get
  moveTo (h.cursor.nextLine 0)

/-! ## Between tokens -/

/-- Goes up to the end of the line. -/
def lineComment : Move Unit := eatWhile (fun c => !isBreak c)

/-- Takes the slash that makes a closing mark of an asterisk. -/
def closes (c : Char) : Move Bool := if c = '*' then eat '/' else return false

/-- Takes a character of a block comment, its closing mark or a line break. -/
def commentRound : Move (Unit ⊕ Unit) := do
  let next? ← bump
  match next? with
  | none => return .inr ()
  | some c =>
    let closed ← closes c
    if closed then return .inr ()
    else if isBreak c then
      newline c
      return .inl ()
    else return .inl ()

/-- Goes behind the closing mark of a block comment, or to the end of the source. -/
def blockComment : Move Unit := loop (fun _ => commentRound) ()

/-! ## Tokens -/

/-- The token from a mark up to the cursor. -/
def makeToken (kind : Kind) (start : Position) (value : Option Value) : Move Token := do
  let text ← textFrom start
  let h ← get
  return ⟨kind, text, start.line, start.column, ⟨start.offset, h.cursor.offset⟩, value⟩

def plain (kind : Kind) (start : Position) (value : Option Value) : Move (Token × Option Diagnostic) := do
  let token ← makeToken kind start value
  return (token, none)

/-- Where an error ends: at the cursor, if it is reported where the token begins, or behind the character at the place. -/
def endOfError (start here : Position) : Move Nat := do
  if here = start then
    let h ← get
    return h.cursor.offset
  else
    let next? ← peek
    return next?.elim here.offset (fun c => here.offset + c.utf8Size)

/-- The error token from a mark up to the cursor, reported at a place. -/
def error (e : LexError) (start here : Position) : Move (Token × Option Diagnostic) := do
  let stop ← endOfError start here
  let token ← makeToken (.error e) start none
  return (token, some ⟨e, here.line, here.column, ⟨here.offset, stop⟩⟩)

/-- What a lexeme gives, without its text: an error where it begins, or a token with its value. -/
def give (kind : Kind) (start : Position) (value : Option Value) : Move (Token × Option Diagnostic) :=
  match kind.error? with
  | some e => error e start start
  | none => plain kind start value

/-- The kind of an operator with a second character, or of the first character alone. -/
def composite (second : Char) (doubled single : Kind) : Move Kind := do
  let found ← eat second
  return if found then doubled else single

/-- The kind of a character that is an operator or a delimiter, or is stray. -/
def single (c : Char) : Kind := ((Symbol.ofLength? 1 [c]).map Prod.snd).getD (.error (.ofStray c))

/-- The kind of an operator or a delimiter of which the first character has just been taken. -/
def symbol (c : Char) : Move Kind :=
  if c = '=' then composite '=' (.operator .eq) (single c)
  else if c = '!' then composite '=' (.operator .neq) (single c)
  else if c = '<' then composite '=' (.operator .lte) (single c)
  else if c = '>' then composite '=' (.operator .gte) (single c)
  else if c = '&' then composite '&' (.operator .and) (single c)
  else if c = '|' then composite '|' (.operator .or) (single c)
  else return single c

/-- Takes a character of a string literal, an escape or the closing quote, or stops in front of what breaks the literal off and
says where and how. -/
def quotedRound : Move (Unit ⊕ Option (LexError × Position)) := do
  let here ← mark
  let next? ← peek
  match next? with
  | none => return .inr (some (.endlessString, here))
  | some c =>
    if isBreak c then return .inr (some (.brokenString, here))
    else if c = '"' then
      let _ ← bump
      return .inr none
    else if c = '\\' then
      let _ ← bump
      let escaped? ← bump
      match escaped? with
      | none => return .inl ()
      | some d =>
        if isBreak d then
          newline d
          return .inl ()
        else return .inl ()
    else
      let _ ← bump
      return .inl ()

/-- Goes behind the closing quote of a string literal, unless it is broken off. -/
def quoted : Move (Option (LexError × Position)) := loop (fun _ => quotedRound) ()

/-- A string literal of which the opening quote has just been taken. -/
def string (start : Position) : Move (Token × Option Diagnostic) := do
  let broken? ← quoted
  match broken? with
  | some (e, here) => error e start here
  | none =>
    let lexeme ← textFrom start
    let body ← unquote lexeme
    plain (.literal .string) start (some (.string (String.ofList (Quoted.decode body.toList))))

/-- A word of which the first character has just been taken. -/
def word (start : Position) : Move (Token × Option Diagnostic) := do
  eatWhile isWordPart
  let text ← textFrom start
  let l := Lexeme.ofWord text.toList
  plain l.kind start l.value

/-- The value of a text as an integer or as a floating-point number. -/
def parseNumber (isFloat : Bool) (text : List Char) : Lexeme :=
  if isFloat then .ofDecimal (text.takeWhile Char.isDigit) (text.dropWhile Char.isDigit).tail else .ofDigits text

def fractionAhead : Move Bool := do
  let next? ← peek
  if next? = some '.' then
    let behind? ← peekNext
    return behind?.any Char.isDigit
  else return false

/-- Takes a point and the digits behind it, if they belong to the number. -/
def fraction (isFloat : Bool) : Move Unit :=
  if isFloat then do
    let _ ← bump
    eatWhile Char.isDigit
  else return ()

/-- A number of which the first digit has just been taken. -/
def number (start : Position) : Move (Token × Option Diagnostic) := do
  eatWhile Char.isDigit
  let isFloat ← fractionAhead
  fraction isFloat
  let text ← textFrom start
  let l := parseNumber isFloat text.toList
  give l.kind start l.value

/-- A token of which the first character has just been taken, and is no slash. -/
def token (c : Char) (start : Position) : Move (Token × Option Diagnostic) :=
  if c = '"' then string start
  else if isWordStart c then word start
  else if c.isDigit then number start
  else do
    let kind ← symbol c
    give kind start none

/-! ## Calls -/

/-- Takes a blank or a comment, or the next token with its diagnostic. -/
def nextRound : Move (Unit ⊕ (Token × Option Diagnostic)) := do
  let start ← mark
  let next? ← bump
  match next? with
  | none =>
    let h ← get
    return .inr (.eof h.cursor, none)
  | some c =>
    if isBreak c then
      newline c
      return .inl ()
    else if isBlank c then return .inl ()
    else if c = '/' then
      let line ← eat '/'
      if line then
        lineComment
        return .inl ()
      else
        let block ← eat '*'
        if block then
          blockComment
          return .inl ()
        else Sum.inr <$> give (single c) start none
    else Sum.inr <$> token c start

/-- The next token, behind blanks and comments, with its diagnostic. -/
def next : Move (Token × Option Diagnostic) := loop (fun _ => nextRound) ()

/-- Adds the next token and its diagnostic to those already taken. -/
def scanRound (taken : List Token × List Diagnostic) :
    Move ((List Token × List Diagnostic) ⊕ (List Token × List Diagnostic)) := do
  let (token, diagnostic) ← next
  let taken' := (taken.1 ++ [token], taken.2 ++ diagnostic.toList)
  return if token.isEof then .inr taken' else .inl taken'

/-- All tokens up to the end of the source, with their diagnostics. -/
def scan : Move (List Token × List Diagnostic) := loop scanRound ([], [])

/-- Answers a call. -/
def call : Call → Move Exchange
  | .next => do
    let (token, diagnostic) ← next
    return ⟨.token token, diagnostic.toList.map Event.diagnostic⟩
  | .scan => do
    let (tokens, diagnostics) ← scan
    return ⟨.tokens tokens, diagnostics.map Event.diagnostic ++ [.flush]⟩
  | .isAtEnd => do
    let h ← get
    return ⟨.answer (h.source.utf8ByteSize ≤ h.cursor.offset), []⟩
  | .source => do
    let h ← get
    return ⟨.text h.source, []⟩

/-- Answers several calls, one after the other. -/
def session : List Call → Move (List Exchange)
  | [] => return []
  | c :: calls => do
    let exchange ← call c
    let exchanges ← session calls
    return exchange :: exchanges

end Head

end MiniLex
