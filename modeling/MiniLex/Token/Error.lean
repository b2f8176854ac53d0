/-!
# What can be wrong with a text

A text is malformed in six ways. None of them stops a scan: the malformed stretch becomes an error token, a diagnostic goes
with it, and scanning goes on behind it.
-/

namespace MiniLex

/-- The causes of an error token. -/
inductive LexError where
  /-- A character that begins no token. -/
  | unexpectedCharacter (c : Char)
  /-- An ampersand that is not doubled. -/
  | loneAmpersand
  /-- A vertical bar that is not doubled. -/
  | lonePipe
  /-- A string literal that runs into the end of its line. -/
  | brokenString
  /-- A string literal that runs into the end of the text. -/
  | endlessString
  /-- An integer that does not fit in 64 bits. -/
  | numberOutOfRange
  deriving DecidableEq

namespace LexError

/-- The wording of an error. -/
def message : LexError → String
  | .unexpectedCharacter c => "unexpected character '" ++ c.toString ++ "'"
  | .loneAmpersand => "expected '&' after '&'"
  | .lonePipe => "expected '|' after '|'"
  | .brokenString => "unterminated string (newline inside literal)"
  | .endlessString => "unterminated string (end of file)"
  | .numberOutOfRange => "numeric literal out of range"

/-- The error of a character that begins no token by itself: the first half of a doubled operator has its own. -/
def ofStray (c : Char) : LexError :=
  if c = '&' then .loneAmpersand
  else if c = '|' then .lonePipe
  else .unexpectedCharacter c

/-- Whether what is wrong shows only where the token ends, and is reported there. -/
def showsAtEnd : LexError → Bool
  | .brokenString | .endlessString => true
  | _ => false

end LexError

end MiniLex
