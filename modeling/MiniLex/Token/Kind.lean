import MiniLex.Token.Error

/-!
# Kinds of tokens

Literals, identifiers, keywords, operators and delimiters, the end of the text, and malformed text with what is wrong with
it. Keywords, operators and delimiters have one spelling each. `true` and `false` are literals and not keywords.
-/

namespace MiniLex

/-- The kinds of literals. -/
inductive LiteralKind where
  | int | float | string | bool
  deriving DecidableEq

/-- The reserved words. -/
inductive Keyword where
  | ifWord | elseWord | whileWord | forWord | intWord | floatWord | boolWord | returnWord | voidWord | structWord | fnWord
  deriving DecidableEq

/-- The operators. -/
inductive Operator where
  | plus | minus | star | slash | percent | eq | neq | lt | lte | gt | gte | and | or | not | assign
  deriving DecidableEq

/-- The delimiters. -/
inductive Delimiter where
  | leftParen | rightParen | leftBrace | rightBrace | semicolon | comma
  deriving DecidableEq

/-- The kinds of tokens. -/
inductive Kind where
  | literal (l : LiteralKind)
  | identifier
  | keyword (k : Keyword)
  | operator (o : Operator)
  | delimiter (d : Delimiter)
  | eof
  | error (e : LexError)
  deriving DecidableEq

namespace Keyword

def all : List Keyword :=
  [.ifWord, .elseWord, .whileWord, .forWord, .intWord, .floatWord, .boolWord, .returnWord, .voidWord, .structWord, .fnWord]

/-- The word that a keyword is written as. -/
def spelling : Keyword → String
  | .ifWord => "if"
  | .elseWord => "else"
  | .whileWord => "while"
  | .forWord => "for"
  | .intWord => "int"
  | .floatWord => "float"
  | .boolWord => "bool"
  | .returnWord => "return"
  | .voidWord => "void"
  | .structWord => "struct"
  | .fnWord => "fn"

/-- The keyword that a word spells, if it spells one. -/
def ofString? (word : String) : Option Keyword := all.find? (fun k => k.spelling == word)

/-- The name of a keyword's kind in a listing. -/
def name : Keyword → String
  | .ifWord => "KW_IF"
  | .elseWord => "KW_ELSE"
  | .whileWord => "KW_WHILE"
  | .forWord => "KW_FOR"
  | .intWord => "KW_INT"
  | .floatWord => "KW_FLOAT"
  | .boolWord => "KW_BOOL"
  | .returnWord => "KW_RETURN"
  | .voidWord => "KW_VOID"
  | .structWord => "KW_STRUCT"
  | .fnWord => "KW_FN"

end Keyword

namespace Operator

def all : List Operator :=
  [.plus, .minus, .star, .slash, .percent, .eq, .neq, .lt, .lte, .gt, .gte, .and, .or, .not, .assign]

/-- The characters that an operator is written as. -/
def spelling : Operator → String
  | .plus => "+"
  | .minus => "-"
  | .star => "*"
  | .slash => "/"
  | .percent => "%"
  | .eq => "=="
  | .neq => "!="
  | .lt => "<"
  | .lte => "<="
  | .gt => ">"
  | .gte => ">="
  | .and => "&&"
  | .or => "||"
  | .not => "!"
  | .assign => "="

/-- The name of an operator's kind in a listing. -/
def name : Operator → String
  | .plus => "PLUS"
  | .minus => "MINUS"
  | .star => "STAR"
  | .slash => "SLASH"
  | .percent => "PERCENT"
  | .eq => "EQ"
  | .neq => "NEQ"
  | .lt => "LT"
  | .lte => "LTE"
  | .gt => "GT"
  | .gte => "GTE"
  | .and => "AND"
  | .or => "OR"
  | .not => "NOT"
  | .assign => "ASSIGN"

/-- How tightly a binary operator binds, from the loosest up. Negation and assignment are no binary operators. -/
def precedence : Operator → Option Nat
  | .or => some 1
  | .and => some 2
  | .eq | .neq => some 3
  | .lt | .lte | .gt | .gte => some 4
  | .plus | .minus => some 5
  | .star | .slash | .percent => some 6
  | .not | .assign => none

end Operator

namespace Delimiter

def all : List Delimiter := [.leftParen, .rightParen, .leftBrace, .rightBrace, .semicolon, .comma]

/-- The character that a delimiter is written as. -/
def spelling : Delimiter → String
  | .leftParen => "("
  | .rightParen => ")"
  | .leftBrace => "\x7b"
  | .rightBrace => "\x7d"
  | .semicolon => ";"
  | .comma => ","

/-- The name of a delimiter's kind in a listing. -/
def name : Delimiter → String
  | .leftParen => "LPAREN"
  | .rightParen => "RPAREN"
  | .leftBrace => "LBRACE"
  | .rightBrace => "RBRACE"
  | .semicolon => "SEMICOLON"
  | .comma => "COMMA"

end Delimiter

namespace LiteralKind

/-- The name of a literal's kind in a listing. -/
def name : LiteralKind → String
  | .int => "INT_LITERAL"
  | .float => "FLOAT_LITERAL"
  | .string => "STRING_LITERAL"
  | .bool => "BOOL_LITERAL"

/-- A literal's kind as a message speaks of it. -/
def display : LiteralKind → String
  | .int => "integer literal"
  | .float => "float literal"
  | .string => "string literal"
  | .bool => "boolean literal"

end LiteralKind

namespace Kind

/-- The name of a kind in a listing. All errors share one. -/
def name : Kind → String
  | .literal l => l.name
  | .identifier => "IDENTIFIER"
  | .keyword k => k.name
  | .operator o => o.name
  | .delimiter d => d.name
  | .eof => "EOF"
  | .error _ => "ERROR"

/-- A kind as a message speaks of it: what has one spelling is quoted. -/
def display : Kind → String
  | .literal l => l.display
  | .identifier => "identifier"
  | .keyword k => "'" ++ k.spelling ++ "'"
  | .operator o => "'" ++ o.spelling ++ "'"
  | .delimiter d => "'" ++ d.spelling ++ "'"
  | .eof => "end of file"
  | .error e => "invalid token (" ++ e.message ++ ")"

def isKeyword : Kind → Bool
  | .keyword _ => true
  | _ => false

def isLiteral : Kind → Bool
  | .literal _ => true
  | _ => false

def isError : Kind → Bool
  | .error _ => true
  | _ => false

def isEof : Kind → Bool
  | .eof => true
  | _ => false

/-- What is wrong with text of this kind. -/
def error? : Kind → Option LexError
  | .error e => some e
  | _ => none

/-- How tightly the kind binds as a binary operator. -/
def precedence : Kind → Option Nat
  | .operator o => o.precedence
  | _ => none

/-- Whether two kinds agree where it does not matter what is wrong with malformed text. -/
def agrees : Kind → Kind → Bool
  | .error _, .error _ => true
  | k, l => k == l

end Kind

end MiniLex
