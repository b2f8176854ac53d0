import MiniLex.Text.Span
import MiniLex.Token.Error

/-!
# Diagnostics

A diagnostic says what is wrong with the text and where. The place is that of the offending character, which is not always
the one where the malformed token begins.
-/

namespace MiniLex

/-- What is wrong with a text, and where. -/
structure Diagnostic where
  error : LexError
  line : UInt32
  column : UInt32
  span : Span
  deriving DecidableEq

/-- A diagnostic on one line of text. -/
def Diagnostic.render (d : Diagnostic) : String :=
  "Error at line " ++ toString d.line.toNat ++ ", column " ++ toString d.column.toNat ++ ": " ++ d.error.message

end MiniLex
