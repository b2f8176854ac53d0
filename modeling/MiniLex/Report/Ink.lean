/-!
# Ink

A report is written in text and in changes of colour. Whether a writer puts the changes of colour down, as sequences that steer
the terminal, or leaves them out is settled when it is made: by the choice that it is made with, and for an automatic choice by
what the environment says of the terminal.
-/

namespace MiniLex

/-- A colour of text. -/
inductive Colour where
  | red | blue
  deriving DecidableEq

/-- How text is shown from some point on. -/
structure Style where
  bold : Bool
  /-- Whether the colour is the bright one of its kind. -/
  bright : Bool
  colour : Option Colour
  deriving DecidableEq

/-- A piece of a report. -/
inductive Ink where
  | text (s : String)
  /-- From here on text is shown in a style. -/
  | style (s : Style)
  /-- From here on text is shown as it is by default. -/
  | reset
  deriving DecidableEq

namespace Colour

def number : Colour → Nat
  | .red => 1
  | .blue => 4

/-- The number of the bright colour of the same kind. -/
def bright (c : Colour) : Nat := c.number + 8

end Colour

namespace Style

/-- The sequence that takes back all styles. -/
def plainSequence : String := "\x1b[0m"

/-- The sequence that sets a style, and takes back the ones before. -/
def sequence (s : Style) : String :=
  plainSequence ++ (if s.bold then "\x1b[1m" else "") ++
    match s.colour with
    | none => ""
    | some c => if s.bright then "\x1b[38;5;" ++ toString c.bright ++ "m" else "\x1b[3" ++ toString c.number ++ "m"

end Style

namespace Ink

/-- What a writer puts down of a piece, in colours or without. -/
def put (colours : Bool) : Ink → String
  | .text s => s
  | .style s => if colours then s.sequence else ""
  | .reset => if colours then Style.plainSequence else ""

/-- What a writer puts down of several pieces. -/
def written (colours : Bool) (ink : List Ink) : String := String.join (ink.map (put colours))

/-- Text in a style of its own. -/
def tinted (s : Style) (text : String) : List Ink := [.style s, .text text, .reset]

@[simp] theorem put_text (colours : Bool) (s : String) : put colours (.text s) = s := rfl

@[simp] theorem put_style (s : Style) : put false (.style s) = "" := rfl

@[simp] theorem put_reset : put false .reset = "" := rfl

@[simp] theorem written_nil (colours : Bool) : written colours [] = "" := rfl

@[simp] theorem written_cons (colours : Bool) (piece : Ink) (ink : List Ink) :
    written colours (piece :: ink) = put colours piece ++ written colours ink := String.join_cons

@[simp] theorem written_append (colours : Bool) (ink behind : List Ink) :
    written colours (ink ++ behind) = written colours ink ++ written colours behind := by
  rw [written, List.map_append, String.join_append]
  rfl

@[simp] theorem written_tinted (s : Style) (text : String) : written false (tinted s text) = text := by
  simp [tinted]

end Ink

/-- What the environment of a program says of its terminal. -/
structure Terminal where
  /-- The kind of the terminal, if it is named. -/
  kind : Option String
  /-- Whether it is asked that colours be left out. -/
  colourless : Bool
  deriving DecidableEq

def Terminal.plain : Terminal := ⟨none, true⟩

/-- When a writer puts colours down. -/
inductive ColourChoice where
  | always
  /-- In sequences that steer the terminal, on every system. -/
  | alwaysAnsi
  /-- If the terminal has a kind that is known to show them, and nothing asks that they be left out. -/
  | auto
  | never
  deriving DecidableEq

/-- Whether a writer with a choice puts colours down. -/
def ColourChoice.colours (choice : ColourChoice) (t : Terminal) : Bool :=
  match choice with
  | .always | .alwaysAnsi => true
  | .auto => t.kind.any (fun kind => kind != "dumb") && !t.colourless
  | .never => false

end MiniLex
