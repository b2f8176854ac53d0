import MiniLex.Diagnostic.Basic
import MiniLex.Report.Line

/-!
# Reports

A report shows a diagnostic together with the source lines it is about: a headline, the place, and the lines with a mark
under the text in question. A span within one line is underlined; one over several lines is bracketed at the left, from a
mark under its first line to a mark under its last. Of the lines between those two the first three and the last one are
shown, and a run of two or more others is left out. The headline is bold, the text in question and its marks have the colour of
errors, and what frames the lines has a colour of its own.
-/

namespace MiniLex

/-- A source with the name it is reported under. -/
structure SourceFile where
  name : String
  text : String
  deriving DecidableEq

/-- What a report is asked to show: a headline, and a text for a span in a file, which is known by its number. -/
structure Annotation where
  headline : String
  file : Nat
  span : Span
  label : String
  deriving DecidableEq

/-- A diagnostic on the file with a number: its line is the headline, and what is wrong stands at its span. -/
def Diagnostic.annotation (id : Nat) (d : Diagnostic) : Annotation := ⟨d.render, id, d.span, d.error.message⟩

namespace Report

/-- How the word for an error is shown. -/
def severityStyle : Style := ⟨true, true, some .red⟩

/-- How a headline is shown. -/
def headlineStyle : Style := ⟨true, true, none⟩

/-- How the numbers of lines and the frame are shown. -/
def frameStyle : Style := ⟨false, false, some .blue⟩

/-- How the text in question is shown, with its marks and the text for it. -/
def labelStyle : Style := ⟨false, false, some .red⟩

/-- So many times the same character. -/
def repeated (n : Nat) (c : Char) : String := String.ofList (List.replicate n c)

/-- A line number, right-aligned. -/
def alignRight (width n : Nat) : String := repeated (width - (toString n).length) ' ' ++ toString n

/-- The lines of a source that a span begins and ends in. -/
def boundaries (lines : List SourceLine) (span : Span) : SourceLine × SourceLine :=
  (.containing lines span.start, .containing lines span.stop)

/-- The line and the column that a report gives for an offset of a source. -/
def locus (text : String) (offset : Nat) : Nat × Nat :=
  let l := SourceLine.containing (SourceLine.ofText text.toList) offset
  (l.number, l.column offset)

/-- The beginning of a row that shows no line of the source. -/
def gutter (width : Nat) (frame : String) : List Ink := .text (repeated width ' ' ++ " ") :: Ink.tinted frameStyle frame

/-- The beginning of a row that shows a line of the source. -/
def numbered (width n : Nat) : List Ink :=
  Ink.tinted frameStyle (alignRight width n) ++ .text " " :: Ink.tinted frameStyle "│"

/-- A mark at the left of a span over several lines. -/
def bracket (mark : String) : List Ink := .text " " :: Ink.tinted labelStyle mark

/-- The rows under the place, for a span within one line. -/
def underlined (width : Nat) (l : SourceLine) (span : Span) (label : String) : List (List Ink) :=
  let start := span.start - l.start
  let stop := max (span.stop - l.start) (start + 1)
  [gutter width "│",
   numbered width l.number ++ .text " " :: l.ink labelStyle (fun c => c.overlaps start stop),
   gutter width "│" ++ .text " " :: l.carets labelStyle start stop ++ .text " " :: Ink.tinted labelStyle label]

/-- How many lines are shown behind the first line of a span, and how many in front of its last. -/
def contextLines : Nat × Nat := (3, 1)

/-- The rows of the lines between the first and the last line of a span. -/
def middle (width : Nat) (lines : List SourceLine) : List (List Ink) :=
  let row (l : SourceLine) : List Ink :=
    numbered width l.number ++ bracket "│" ++ .text " " :: l.ink labelStyle (fun _ => true)
  if lines.length ≤ contextLines.1 + contextLines.2 + 1 then lines.map row
  else
    (lines.take contextLines.1).map row ++ [gutter width "·" ++ bracket "│"] ++
      (lines.drop (lines.length - contextLines.2)).map row

/-- The rows under the place, for a span over several lines. The mark under the first line is left out where nothing but
white space stands in front of the span. -/
def bracketed (width : Nat) (first : SourceLine) (between : List SourceLine) (last : SourceLine) (span : Span)
    (label : String) : List (List Ink) :=
  let start := span.start - first.start
  let stop := span.stop - last.start
  let line (l : SourceLine) (mark : List Ink) (marked : Cell → Bool) : List Ink :=
    numbered width l.number ++ mark ++ .text " " :: l.ink labelStyle marked
  let opening :=
    if start ≤ first.indentation then [line first (bracket "╭") (fun c => start ≤ c.start)]
    else
      [line first [.text "  "] (fun c => start ≤ c.start),
       gutter width "│" ++ bracket "╭" ++
         Ink.tinted labelStyle (repeated (Cell.widthWhile (· ≤ start) first.cells) '─' ++ "^")]
  [gutter width "│" ++ [.text "  "]] ++ opening ++ middle width between ++
    [line last (bracket "│") (fun c => c.start + c.char.utf8Size ≤ stop),
     gutter width "│" ++ bracket "╰" ++
       Ink.tinted labelStyle (repeated (Cell.widthWhile (· < stop) last.cells) '─' ++ "^ " ++ label)]

/-- The rows of a report. -/
def rows (file : SourceFile) (a : Annotation) : List (List Ink) :=
  let lines := SourceLine.ofText file.text.toList
  let (first, last) := boundaries lines a.span
  let width := (toString (max first.number last.number)).length
  let (line, column) := locus file.text a.span.start
  [[.style severityStyle, .text "error", .style headlineStyle, .text (": " ++ a.headline), .reset],
   gutter width "┌─" ++ [.text (" " ++ file.name ++ ":" ++ toString line ++ ":" ++ toString column)]] ++
    (if first.number = last.number then underlined width first a.span a.label
     else
       bracketed width first (lines.filter fun l => first.number < l.number && l.number < last.number) last a.span a.label) ++
    [[]]

/-- A report on a source. -/
def ink (file : SourceFile) (a : Annotation) : List Ink := (rows file a).flatMap (· ++ [.text "\n"])

end Report

end MiniLex
