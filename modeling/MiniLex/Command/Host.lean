import MiniLex.Command.LogFilter
import MiniLex.Diagnostic.Sink
import MiniLex.Disk.Basic
import MiniLex.Report.Ink

/-!
# Where a command runs

A command reads and writes files, prints its result, and speaks on the error channel, where the notices of its log and the
texts of its diagnostics appear in one order. What it needs of the place where it runs is a `Host`. A `Machine` is a host of
which everything is known: its disk, what has been printed, its terminal, and all that has been done on it, in order.
-/

namespace MiniLex

/-- What a command needs of the place where it runs. -/
structure Host (m : Type → Type) where
  /-- Reads the text of the file that a path names. -/
  read : String → m (Except DiskError String)
  /-- Writes a text to the file that a path names. -/
  write : String → String → m (Except DiskError Unit)
  /-- Prints a part of the result, or tells why it cannot. -/
  print : String → m (Except String Unit)
  /-- Enters a notice into the log. -/
  log : Notice → m Unit
  /-- Says something on the error channel. -/
  say : String → m Unit
  /-- Tells what the environment says of the terminal. -/
  terminal : m Terminal

/-- Something that is done on a host: to read a file, to try to write one, to try to print, to enter a notice into the log, or to
say something on the error channel. -/
inductive Deed where
  | read (path : String)
  | write (path text : String)
  | print (text : String)
  | log (n : Notice)
  | say (s : String)
  deriving DecidableEq

/-- A host of which everything is known. -/
structure Machine where
  disk : Disk
  /-- The channel that the result is printed on. -/
  stdout : Channel
  terminal : Terminal
  /-- What has been done, in order. -/
  history : List Deed

namespace Machine

/-- A machine with a disk and a terminal without colours, on which nothing has been done, and whose output channel fails if told
so. -/
def fresh (disk : Disk) (failure : Option String) : Machine := ⟨disk, .fresh failure, .plain, []⟩

/-- The machine with one thing more done. -/
def done (m : Machine) (deed : Deed) : Machine := ⟨m.disk, m.stdout, m.terminal, m.history ++ [deed]⟩

/-- Writes a text to the file that a path names. -/
def write (m : Machine) (path text : String) : Except DiskError Unit × Machine :=
  let (result, disk) := m.disk.write path text
  (result, ⟨disk, m.stdout, m.terminal, m.history ++ [.write path text]⟩)

/-- Prints a text, unless the output channel fails. -/
def print (m : Machine) (text : String) : Except String Unit × Machine :=
  let history := m.history ++ [.print text]
  match m.stdout.failure with
  | some reason => (.error reason, ⟨m.disk, m.stdout, m.terminal, history⟩)
  | none => (.ok (), ⟨m.disk, (m.stdout.write text).flush, m.terminal, history⟩)

/-- What is seen on the error channel where the log has a filter. -/
def errorText (m : Machine) (filter : LogFilter) : String :=
  String.join (m.history.map fun
    | .log n => if filter.admits n then n.render else ""
    | .say s => s
    | .read _ | .write _ _ | .print _ => "")

/-- A machine as a host. -/
def host : Host (StateM Machine) where
  read path := fun m => (m.disk.read path, m.done (.read path))
  write path text := fun m => m.write path text
  print text := fun m => m.print text
  log n := fun m => ((), m.done (.log n))
  say s := fun m => ((), m.done (.say s))
  terminal := fun m => (m.terminal, m)

end Machine

end MiniLex
