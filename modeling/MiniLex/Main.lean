import MiniLex.Command.Lex

/-!
# The command line

Runs the command on the files, the output and the error channel of the process. The filter of the log comes from the
environment, or from the verbosity where the environment gives none.
-/

namespace MiniLex

/-- The failed access that an error of the operating system stands for. Directories share their class of errors with other
files, and are told apart by the error's number. -/
def DiskError.ofSystem : IO.Error → DiskError
  | .noFileOrDirectory .. => .notFound
  | .inappropriateType _ number _ => if number = 21 then .isADirectory else .notADirectory
  | e => .refused (toString e)

/-- The process as a host, with a filter for its log. -/
def processHost (filter : LogFilter) : Host IO where
  read path := do
    try
      let content ← IO.FS.readBinFile path
      match String.fromUTF8? content with
      | some text => pure (.ok text)
      | none => pure (.error .invalidText)
    catch e => pure (.error (DiskError.ofSystem e))
  write path text := do
    try
      IO.FS.writeFile path text
      pure (.ok ())
    catch e => pure (.error (DiskError.ofSystem e))
  print text := do
    try
      let out ← IO.getStdout
      out.putStr text
      out.flush
      pure (.ok ())
    catch e => pure (.error (toString e))
  log n := if filter.admits n then IO.eprint n.render else pure ()
  say s := IO.eprint s
  terminal := do pure ⟨← IO.getEnv "TERM", (← IO.getEnv "NO_COLOR").isSome⟩

end MiniLex

open MiniLex

/-- Runs the command that the command line asks for. -/
def main (args : List String) : IO UInt32 := do
  match Options.parse? args with
  | none =>
    IO.eprintln "Usage: minic lex --input <INPUT> [--output <OUTPUT>] [--pretty] [--deny-errors] [--verbose]"
    pure (UInt32.ofNat Command.usageStatus)
  | some options =>
    let setup := LogSetup.choose (← IO.getEnv "RUST_LOG") options.verbose
    pure (UInt32.ofNat (← Command.execute (processHost setup.filter) setup.errors options))
