import MiniLex.Proofs.Grammar.Lexeme
import MiniLex.Proofs.Place
import MiniLex.Scanner.Basic

/-!
# What a scan does, step by step

A scan either stops behind the last gap or reads one lexeme behind a gap and goes on from there (`Scanner.scan_stop`,
`Scanner.scan_step`). Whatever holds where it stops and is kept by one lexeme holds of every scan (`Scanner.scan_induction`).
-/

namespace MiniLex

/-! ## The beginning of a source -/

/-- The mark that a source begins with, if it begins with one. -/
def markOf (source : String) : List Char :=
  if source.toList.head? = some Scanner.byteOrderMark then [Scanner.byteOrderMark] else []

/-- The text of a source behind its mark. -/
def textOf (source : String) : List Char :=
  if source.toList.head? = some Scanner.byteOrderMark then source.toList.tail else source.toList

/-- The mark and the text make up the source. -/
theorem markOf_append_textOf (source : String) : markOf source ++ textOf source = source.toList := by
  unfold markOf textOf
  split
  · next h =>
    obtain ⟨cs, hcs⟩ := List.head?_eq_some_iff.mp h
    simp [hcs]
  · rfl

/-- What is joined to a source that is not empty leaves its mark as it is. -/
theorem markOf_append {s : String} (h : s.toList ≠ []) (t : String) : markOf (s ++ t) = markOf s := by
  obtain ⟨c, cs, hs⟩ := List.exists_cons_of_ne_nil h
  simp only [markOf, String.toList_append, hs, List.cons_append, List.head?_cons]

/-- What is joined to a source that is not empty is joined to its text. -/
theorem textOf_append {s : String} (h : s.toList ≠ []) (t : String) : textOf (s ++ t) = textOf s ++ t.toList := by
  obtain ⟨c, cs, hs⟩ := List.exists_cons_of_ne_nil h
  simp only [textOf, String.toList_append, hs, List.cons_append, List.head?_cons, List.tail_cons]
  split <;> rfl

/-- A source that does not begin with the mark is text from its first character on. -/
theorem markOf_of_head? {s : String} (h : s.toList.head? ≠ some Scanner.byteOrderMark) :
    markOf s = [] ∧ textOf s = s.toList := ⟨if_neg h, if_neg h⟩

/-- A scanner begins behind the mark, in the first line and column. -/
theorem ofSource_eq (source : String) :
    Scanner.ofSource source = ⟨source, textOf source, ⟨byteLength (markOf source), 1, 1⟩⟩ := by
  unfold Scanner.ofSource textOf markOf
  simp only
  split <;> rfl

theorem LexError.error_diagnose (e : LexError) (start stop : Position) (rest : List Char) :
    (e.diagnose start stop rest).error = e := by
  unfold diagnose
  split <;> rfl

namespace Scanner

theorem source_ofSource (source : String) : (ofSource source).source = source := by
  rw [ofSource_eq]

theorem rest_ofSource (source : String) : (ofSource source).rest = textOf source := by
  rw [ofSource_eq]

theorem position_ofSource (source : String) : (ofSource source).position = ⟨byteLength (markOf source), 1, 1⟩ := by
  rw [ofSource_eq]

/-! ## One step -/

/-- The blanks and comments in front of a scanner. -/
def gap (s : Scanner) : List Char := Trivia.concat (Trivia.split s.rest).1

/-- The scanner behind a lexeme, with the text that is still to be read. -/
def behind (s : Scanner) (l : Lexeme) (rest : List Char) : Scanner := ⟨s.source, rest, s.position.advance l.text⟩

/-- The step that reads a lexeme. -/
def stepOver (s : Scanner) (l : Lexeme) (rest : List Char) : Step :=
  ⟨l.toToken s.position (s.behind l rest).position,
    l.kind.error?.map (fun e => e.diagnose s.position (s.behind l rest).position rest), s.behind l rest⟩

theorem lexeme_stepOver (s : Scanner) (l : Lexeme) (rest : List Char) : (s.stepOver l rest).token.lexeme.toList = l.text :=
  String.toList_ofList

/-- The gap and what is left behind it make up what was left. -/
theorem gap_append_skip (s : Scanner) : s.gap ++ s.skip.rest = s.rest := Trivia.concat_append_split s.rest

theorem not_startsBetween_skip (s : Scanner) : ¬Grammar.StartsBetween s.skip.rest :=
  Trivia.not_startsBetween_split s.rest

theorem offset_skip (s : Scanner) : s.skip.position.offset = s.position.offset + byteLength s.gap :=
  offset_advance s.position s.gap

theorem offset_behind (s : Scanner) (l : Lexeme) (rest : List Char) :
    (s.behind l rest).position.offset = s.position.offset + byteLength l.text :=
  offset_advance s.position l.text

/-- Where nothing is left behind the gap, the gap is all that was left, and the last one of the text. -/
theorem lastGap_skip {s : Scanner} (h : s.skip.rest = []) : s.gap = s.rest ∧ Grammar.LastGap s.rest := by
  have hgap := s.gap_append_skip
  rw [h, List.append_nil] at hgap
  have hlast : Grammar.LastGap s.gap := Trivia.lastGap_split s.rest h
  rw [hgap] at hlast
  exact ⟨hgap, hlast⟩

/-- Where a lexeme is read behind the gap, gap, lexeme and what is left behind it make up what was left. -/
theorem gap_append_text {s : Scanner} {l : Lexeme} {rest : List Char} (h : Lexeme.read? s.skip.rest = some (l, rest)) :
    s.gap ++ (l.text ++ rest) = s.rest := by
  rw [Lexeme.text_append_of_read? _ rest l h, gap_append_skip]

/-- What a scanner goes past in front of a lexeme is a gap of the grammar, and no other gap begins where the lexeme does. -/
theorem gap_skip {s : Scanner} {l : Lexeme} {rest : List Char} (h : Lexeme.read? s.skip.rest = some (l, rest)) :
    Grammar.Gap s.gap (l.text ++ rest) ∧ ¬Grammar.StartsBetween (l.text ++ rest) := by
  rw [Lexeme.text_append_of_read? _ rest l h]
  refine ⟨Trivia.gap_split s.rest (fun he => ?_), s.not_startsBetween_skip⟩
  have hrest : s.skip.rest = [] := he
  rw [hrest] at h
  cases h

/-- Reading a token is reading a lexeme. -/
theorem read?_eq (s : Scanner) : s.read? = (Lexeme.read? s.rest).map (fun (l, rest) => s.stepOver l rest) := by
  unfold read?
  cases Lexeme.read? s.rest with
  | none => rfl
  | some found => rfl

theorem read?_of_nil {s : Scanner} (h : s.rest = []) : s.read? = none := by
  rw [read?_eq, h]
  rfl

theorem read?_of_lexeme {s : Scanner} {l : Lexeme} {rest : List Char} (h : Lexeme.read? s.rest = some (l, rest)) :
    s.read? = some (s.stepOver l rest) := by
  rw [read?_eq, h]
  rfl

/-- Where nothing but a gap is left, a scan gives the end of the text and no more. -/
theorem scan_stop (s : Scanner) (h : s.skip.rest = []) : s.scan = ⟨[.eof s.skip.position], [], s.skip⟩ := by
  have hr := read?_of_nil h
  rw [scan]
  split
  · rfl
  · next hs => simp [hr] at hs

/-- Where a lexeme is read behind the gap, a scan gives its token and goes on behind it. -/
theorem scan_step (s : Scanner) (l : Lexeme) (rest : List Char) (h : Lexeme.read? s.skip.rest = some (l, rest)) :
    s.scan = .cons (s.skip.stepOver l rest) (s.skip.behind l rest).scan := by
  have hr := read?_of_lexeme h
  rw [scan]
  split
  · next hs => simp [hr] at hs
  · next step hs =>
    obtain rfl := Option.some.inj (hr.symm.trans hs)
    rfl

/-! ## All steps -/

/-- What holds of a scan that stops, and of one that reads a lexeme if it holds of the scan behind it, holds of every
scan. -/
theorem scan_induction {motive : Scanner → Scan → Prop}
    (stop : ∀ s : Scanner, s.skip.rest = [] → motive s ⟨[.eof s.skip.position], [], s.skip⟩)
    (step : ∀ (s : Scanner) (l : Lexeme) (rest : List Char), Lexeme.read? s.skip.rest = some (l, rest) →
      motive (s.skip.behind l rest) (s.skip.behind l rest).scan →
      motive s (.cons (s.skip.stepOver l rest) (s.skip.behind l rest).scan))
    (s : Scanner) : motive s s.scan := by
  induction hn : s.rest.length using Nat.strongRecOn generalizing s with
  | ind n ih =>
    cases hr : Lexeme.read? s.skip.rest with
    | none =>
      have he := (Lexeme.read?_eq_none_iff _).mp hr
      rw [scan_stop s he]
      exact stop s he
    | some found =>
      obtain ⟨l, rest⟩ := found
      rw [scan_step s l rest hr]
      have hl := Lexeme.length_lt_of_read? s.skip.rest rest l hr
      have hs := s.length_skip_le
      exact step s l rest hr (ih rest.length (by omega) (s.skip.behind l rest) rfl)

end Scanner

end MiniLex
