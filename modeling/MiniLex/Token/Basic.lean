import MiniLex.Number.Layout
import MiniLex.Text.Span
import MiniLex.Token.Kind

/-!
# Tokens

A token is a stretch of the text together with its kind, the place where it begins, and, if it is a literal, the value it
denotes. Its lexeme is the stretch as written. A token renders as one entry of a listing, in which neither the lexeme nor a
string's value is escaped.
-/

namespace MiniLex

/-- What a literal denotes. -/
inductive Value where
  | int (n : UInt64)
  | float (x : Binary64)
  | bool (b : Bool)
  | string (s : String)
  deriving DecidableEq

/-- A value as text. -/
def Value.render : Value → String
  | .int n => toString n.toNat
  | .float x => x.render
  | .bool true => "True"
  | .bool false => "False"
  | .string s => s

/-- A token. -/
structure Token where
  kind : Kind
  lexeme : String
  line : UInt32
  column : UInt32
  span : Span
  value : Option Value
  deriving DecidableEq

namespace Token

def isError (t : Token) : Bool := t.kind.isError

def isEof (t : Token) : Bool := t.kind.isEof

/-- A token as an entry of a listing: its place, the name of its kind, its lexeme in quotes, and its value if it has one. -/
def render (t : Token) : String :=
  toString t.line.toNat ++ ":" ++ toString t.column.toNat ++ " " ++ t.kind.name ++ " \"" ++ t.lexeme ++ "\"" ++
    match t.value with
    | none => ""
    | some v => " " ++ v.render

end Token

end MiniLex
