import MiniLex.Text.ControlSequence

/-!
# The log of a command

A command tells what it is doing in notices of different severity, each from a part of the program. A notice is shown as a
line with the lines of its text behind the first indented, and without anything that steers a terminal.
-/

namespace MiniLex

/-- How severe a notice is, from the most severe down. -/
inductive Severity where
  | error | warn | info | debug | trace
  deriving DecidableEq

namespace Severity

/-- The rank of a severity: the more severe, the lower. -/
def rank : Severity → Nat
  | .error => 1
  | .warn => 2
  | .info => 3
  | .debug => 4
  | .trace => 5

/-- A severity as a notice shows it, filled up to the width of the longest. -/
def label : Severity → String
  | .error => "ERROR"
  | .warn => "WARN "
  | .info => "INFO "
  | .debug => "DEBUG"
  | .trace => "TRACE"

end Severity

/-- A line of the log, with the part of the program that it comes from. -/
structure Notice where
  severity : Severity
  target : String
  text : String
  deriving DecidableEq

namespace Notice

/-- How far the lines of a notice behind its first are indented. -/
def indentation : Nat := 4

/-- A text with every line behind the first indented. -/
def indented (text : String) : String :=
  String.ofList (text.toList.flatMap fun c => if c = '\n' then c :: List.replicate indentation ' ' else [c])

/-- A notice as it is shown. -/
def render (n : Notice) : String :=
  plainText ("[" ++ n.severity.label ++ " " ++ n.target ++ "] " ++ indented n.text ++ "\n")

/-- An input is about to be read. -/
def lexing (input : String) : Notice := ⟨.info, "minic::driver", "lexing " ++ input⟩

/-- A source has been scanned. -/
def scanned (tokens errors : Nat) : Notice :=
  ⟨.debug, "minic::driver", "scanned " ++ toString tokens ++ " tokens, " ++ toString errors ++ " errors"⟩

/-- A listing has been written to a file. -/
def wrote (tokens : Nat) (output : String) : Notice :=
  ⟨.info, "minic::driver", "wrote " ++ toString tokens ++ " tokens to " ++ output⟩

/-- The command has done its work. -/
def finished (errors : Nat) : Notice := ⟨.debug, "minic", toString errors ++ " lexical error(s)"⟩

end Notice

end MiniLex
