import MiniLex.Diagnostic.Sink
import MiniLex.Report.Basic

/-!
# Reporters

A reporter knows files by their numbers. Files are entered one after the other and numbered from zero; a file that was entered
stays as it is, and two files may have the same name. The reports are laid out by an emitter, which looks files up by their
numbers. What it lays out can be asked for as text, without colours, or goes to the error channel at once, in the colours that
the writer there puts down.
-/

namespace MiniLex

/-- What an emitter has laid out, and whether it came to the end. -/
structure Emission where
  ink : List Ink
  finished : Bool
  deriving DecidableEq

/-- What lays out a report, looking up files by their numbers. -/
abbrev Emitter : Type := (Nat → Option SourceFile) → Annotation → Emission

/-- The emitter of reports. Without the file it fails, and has laid out nothing. -/
def Emitter.standard : Emitter := fun files a =>
  match files a.file with
  | some file => ⟨Report.ink file a, true⟩
  | none => ⟨[], false⟩

/-- The files that diagnostics can be reported against, and when the writer on the error channel uses colours. -/
structure Reporter where
  files : List SourceFile
  choice : ColourChoice
  deriving DecidableEq

namespace Reporter

/-- The reporter without files whose writer has a choice of colours. -/
def withColour (choice : ColourChoice) : Reporter := ⟨[], choice⟩

/-- The reporter without files that leaves colours to the terminal. -/
def new : Reporter := withColour .auto

/-- Enters a file, and gives its number. -/
def add (r : Reporter) (file : SourceFile) : Nat × Reporter := (r.files.length, ⟨r.files ++ [file], r.choice⟩)

/-- The file with a number. -/
def lookup (r : Reporter) (id : Nat) : Option SourceFile := r.files[id]?

/-- Has a report laid out for a diagnostic on the file with a number. -/
def emit (r : Reporter) (e : Emitter) (id : Nat) (d : Diagnostic) : Emission := e r.lookup (d.annotation id)

/-- The report of a diagnostic on the file with a number, without colours. Where it cannot be laid out it is the diagnostic on
one line. -/
def render (r : Reporter) (e : Emitter) (id : Nat) (d : Diagnostic) : String :=
  if (r.emit e id d).finished then Ink.written false (r.emit e id d).ink else d.render

/-- What goes to the error channel for a diagnostic on the file with a number: its report as far as it is laid out, in the
colours that the writer puts down. -/
def report (r : Reporter) (e : Emitter) (t : Terminal) (id : Nat) (d : Diagnostic) : String :=
  Ink.written (r.choice.colours t) (r.emit e id d).ink

/-- The sink that reports every diagnostic against the file with a number. It holds nothing back, so the end of a scan is
nothing to it. -/
def sink (r : Reporter) (e : Emitter) (t : Terminal) (id : Nat) : Sink Channel :=
  ⟨fun c d => c.put (r.report e t id d), fun c => c⟩

end Reporter

end MiniLex
