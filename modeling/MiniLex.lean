import MiniLex.Cursor
import MiniLex.Main
import MiniLex.Scanner.Checked
import MiniLex.Proofs.Grammar.Basic
import MiniLex.Proofs.Grammar.Between
import MiniLex.Proofs.Grammar.Quoted
import MiniLex.Proofs.Grammar.Pattern
import MiniLex.Proofs.Grammar.Lexeme
import MiniLex.Proofs.Scan
import MiniLex.Proofs.Grammar.Derivation
import MiniLex.Proofs.Tiling
import MiniLex.Proofs.Seam
import MiniLex.Proofs.Errors
import MiniLex.Proofs.Located
import MiniLex.Proofs.Session
import MiniLex.Proofs.Lookahead
import MiniLex.Proofs.Transfer
import MiniLex.Proofs.SharedPrefix
import MiniLex.Proofs.Separated
import MiniLex.Proofs.Joined
import MiniLex.Proofs.Counted
import MiniLex.Proofs.Unambiguous
import MiniLex.Proofs.LineEnds
import MiniLex.Proofs.Locus
import MiniLex.Proofs.Walk
import MiniLex.Proofs.Denoted
import MiniLex.Proofs.Parity
import MiniLex.Proofs.Overwriting
import MiniLex.Proofs.Effects
import MiniLex.Proofs.Presentation
import MiniLex.Proofs.Resumed
import MiniLex.Proofs.EndBehind
import MiniLex.Proofs.Integer
import MiniLex.Proofs.ErrorLines
import MiniLex.Proofs.Reporter
import MiniLex.Proofs.Number.Rounding
import MiniLex.Proofs.Number.Nearest
import MiniLex.Proofs.Float
import MiniLex.Proofs.Number.Shortest
import MiniLex.Proofs.ReadBack
import MiniLex.Proofs.Head.Basic
import MiniLex.Proofs.Head.Moves
import MiniLex.Proofs.Head.Lexemes
import MiniLex.Proofs.Head.Calls
import MiniLex.Proofs.Head.Progress
