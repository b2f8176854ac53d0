import MiniLex.Command.Host
import MiniLex.Command.Options
import MiniLex.Listing
import MiniLex.Report.Reporter

/-!
# The command

The command reads a source, says what is wrong with it, and writes its listing with a line feed behind it to a file or prints
it. What is wrong is said before the listing is delivered, one diagnostic after the other. Where the command is told to deny
errors, it fails at the end if the source had any; the listing has been written by then. A failure to read comes before anything
is said, and a failure to write before errors are denied.
-/

namespace MiniLex

/-- How the command treats what is wrong with a source. -/
structure Settings where
  /-- Whether diagnostics are shown as reports. -/
  pretty : Bool
  /-- Whether the command fails if there are any. -/
  denyErrors : Bool
  deriving DecidableEq

/-- Why the command fails. -/
inductive Failure where
  | inputNotFound (input : String)
  | unreadable (cause : DiskError)
  | unwritable (output : String) (cause : DiskError)
  | unprintable (reason : String)
  | lexical (count : Nat)
  deriving DecidableEq

namespace Failure

/-- The failure to read an input. A missing one has a failure of its own. -/
def ofRead (input : String) : DiskError → Failure
  | .notFound => .inputNotFound input
  | cause => .unreadable cause

/-- The wording of a failure. -/
def message : Failure → String
  | .inputNotFound input => "File '" ++ input ++ "' not found."
  | .unreadable cause => "IO error: " ++ cause.message
  | .unwritable output cause => "cannot write '" ++ output ++ "': " ++ cause.message
  | .unprintable reason => "IO error: " ++ reason
  | .lexical count => toString count ++ " lexical error(s)"

/-- The wording of what a failure goes back to outside the command. -/
def cause? : Failure → Option String
  | .unreadable cause => some cause.message
  | .unwritable _ cause => some cause.message
  | .unprintable reason => some reason
  | .inputNotFound _ | .lexical _ => none

/-- A failure as the command line tells it, with its cause behind it. -/
def render (f : Failure) : String :=
  "Error: " ++ f.message ++ (match f.cause? with | none => "" | some cause => ": " ++ cause) ++ "\n"

end Failure

/-- What is said about a diagnostic: its line, or its report on the source under the name of the input. -/
def Settings.present (s : Settings) (t : Terminal) (input source : String) (d : Diagnostic) : String :=
  if s.pretty then
    let (id, reporter) := Reporter.new.add ⟨input, source⟩
    reporter.report .standard t id d
  else d.render ++ "\n"

namespace Command

/-- Delivers a listing to the output, if there is one, or else prints it. -/
def deliver {m : Type → Type} [Monad m] (host : Host m) (output : Option String) (listing : Listing) :
    m (Except Failure Unit) := do
  let text := listing.render ++ "\n"
  match output with
  | some path =>
    match ← host.write path text with
    | .error cause => pure (.error (.unwritable path cause))
    | .ok () =>
      host.log (.wrote listing.entries.length path)
      pure (.ok ())
  | none =>
    match ← host.print text with
    | .error reason => pure (.error (.unprintable reason))
    | .ok () => pure (.ok ())

/-- Runs the command on an input. -/
def run {m : Type → Type} [Monad m] (host : Host m) (settings : Settings) (input : String) (output : Option String) :
    m (Except Failure Listing) := do
  host.log (.lexing input)
  match ← host.read input with
  | .error cause => pure (.error (.ofRead input cause))
  | .ok source =>
    let scan := tokenize source
    let listing := Listing.ofTokens scan.tokens
    let terminal ← host.terminal
    scan.diagnostics.forM (fun d => host.say (settings.present terminal input source d))
    host.log (.scanned listing.entries.length listing.errorCount)
    match ← deliver host output listing with
    | .error failure => pure (.error failure)
    | .ok () =>
      if settings.denyErrors && listing.hasErrors then pure (.error (.lexical listing.errorCount))
      else pure (.ok listing)

/-- Runs the command as the command line has it, and gives the exit status. What is wrong with the filter of the log comes
first. -/
def execute {m : Type → Type} [Monad m] (host : Host m) (errors : List FilterError) (options : Options) : m Nat := do
  host.say (String.join (errors.map FilterError.message))
  match ← run host ⟨options.pretty, options.denyErrors⟩ options.input options.output with
  | .error failure =>
    host.say failure.render
    pure 1
  | .ok listing =>
    host.log (.finished listing.errorCount)
    pure 0

/-- The exit status for a command line that is not well formed. -/
def usageStatus : Nat := 2

end Command

end MiniLex
