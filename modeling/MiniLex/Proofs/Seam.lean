import Mathlib.Data.List.Basic
import MiniLex.Proofs.Scan

/-!
# Seams

A scan cuts its text into gaps and lexemes, and no cut goes through a line break of two characters or through a run of digits
(`Seam`). For lexemes this is maximal munch: one that could go on by another digit, or by the line feed of an escaped line
break, would have done so. A scanner that has read a text knows the place behind it (`Scanner.Stands`), and every step of a
scan keeps that (`Scanner.Stands.skip`, `Scanner.Stands.behind`).
-/

namespace MiniLex

open Grammar

/-- Two texts, one behind the other, cut no line break and no run of digits in two. -/
def Seam (cs ds : List Char) : Prop :=
  ∀ c d, cs.getLast? = some c → ds.head? = some d → ¬(c = '\r' ∧ d = '\n') ∧ ¬(c.isDigit = true ∧ d.isDigit = true)

theorem Seam.nil_right (cs : List Char) : Seam cs [] := by
  intro c d _ hd
  simp at hd

theorem Seam.nil_left (ds : List Char) : Seam [] ds := by
  intro c d hc
  simp at hc

/-- A seam cuts no line break in two. -/
theorem Seam.uncut {cs ds : List Char} (h : Seam cs ds) : Uncut cs ds := by
  rintro ⟨hc, hd⟩
  exact (h _ _ hc hd).1 ⟨rfl, rfl⟩

/-- In front of two texts the seam is that of the first, unless that is empty. -/
theorem Seam.left {cs es ds : List Char} (h : Seam cs (es ++ ds)) : Seam cs es := by
  intro c d hc hd
  exact h c d hc (by simp [hd])

/-- Behind two texts the seam is that of the second, or of the first if the second is empty. -/
theorem Seam.append {cs es ds : List Char} (h : es = [] → Seam cs ds) (he : es ≠ [] → Seam es ds) : Seam (cs ++ es) ds := by
  by_cases hn : es = []
  · rw [hn, List.append_nil]
    exact h hn
  · intro c d hc hd
    rw [List.getLast?_append_of_ne_nil cs hn] at hc
    exact he hn c d hc hd

/-! ## Gaps -/

/-- A digit is neither a blank nor a line break. -/
theorem not_isBlank_of_isDigit {c : Char} (h : c.isDigit = true) : isBlank c = false := by
  rw [Bool.eq_false_iff, ne_eq, isBlank_iff]
  rintro (rfl | rfl | rfl | rfl) <;> exact absurd h (by decide)

/-- No run of digits goes on behind a piece. -/
theorem Grammar.Piece.not_digits {piece rest : List Char} (h : Piece piece rest) {c d : Char} (hc : piece.getLast? = some c)
    (hd : rest.head? = some d) : ¬(c.isDigit = true ∧ d.isDigit = true) := by
  rintro ⟨hcd, hdd⟩
  cases h with
  | blank hb =>
    obtain rfl : _ = c := by simpa using hc
    exact absurd ((isBlank_iff _).mpr hb) (by simp [not_isBlank_of_isDigit hcd])
  | lineComment _ hr =>
    have hb : isBlank d = true := (isBlank_iff d).mpr (Or.inr (Or.inr (hr d hd)))
    simp [not_isBlank_of_isDigit hdd] at hb
  | @blockComment body _ _ =>
    have hl : ('/' :: '*' :: (body ++ closing)).getLast? = some '/' := by simp [closing, List.getLast?_cons]
    obtain rfl := Option.some.inj (hl.symm.trans hc)
    exact absurd hcd (by decide)

/-- No run of digits goes on behind a gap. -/
theorem Grammar.Gap.not_digits {gap rest : List Char} (h : Gap gap rest) {c d : Char} (hc : gap.getLast? = some c)
    (hd : rest.head? = some d) : ¬(c.isDigit = true ∧ d.isDigit = true) := by
  induction h with
  | nil => simp at hc
  | @cons piece gap rest hp _ ih =>
    by_cases hn : gap = []
    · subst hn
      rw [List.append_nil] at hc
      exact hp.not_digits hc hd
    · rw [List.getLast?_append_of_ne_nil piece hn] at hc
      exact ih hc hd

/-! ## Lexemes -/

/-- A run of digits with another one behind it is a run of digits. -/
theorem Grammar.Digits.snoc {cs : List Char} {d : Char} (h : Digits cs) (hd : d.isDigit = true) : Digits (cs ++ [d]) := by
  refine ⟨by simp, fun c hc => ?_⟩
  rcases List.mem_append.mp hc with hc | hc
  · exact h.2 c hc
  · rwa [List.mem_singleton.mp hc]

/-- The operators and delimiters end in neither a carriage return nor a digit. -/
theorem table_last : ∀ entry ∈ Symbol.table, ∀ c, entry.1.getLast? = some c → c ≠ '\r' ∧ c.isDigit = false := by
  have h : ∀ entry ∈ Symbol.table, entry.1.getLast?.all (fun c => c != '\r' && !c.isDigit) = true := by decide
  intro entry hm c hc
  have he := h entry hm
  rw [hc] at he
  simpa using he

/-- A text with a pattern does not end in a carriage return, and if it ends in a digit it can go on by another. -/
theorem Grammar.Matches.last {kind : Kind} {text : List Char} (h : Matches kind text) {c : Char}
    (hc : text.getLast? = some c) :
    c ≠ '\r' ∧ (c.isDigit = true → ∀ d : Char, d.isDigit = true → HasPattern (text ++ [d])) := by
  have hmem := List.mem_of_getLast? hc
  cases h with
  | @word w ws _ hw hws _ =>
    refine ⟨?_, fun _ d hd => ⟨_, Matches.word hw (fun e he => ?_) (wordKind_ofWord _)⟩⟩
    · rintro rfl
      rcases List.mem_cons.mp hmem with rfl | hmem
      · revert hw
        decide
      · exact absurd (hws _ hmem) (by decide)
    · rcases List.mem_append.mp he with he | he
      · exact hws e he
      · obtain rfl := List.mem_singleton.mp he
        simpa [isWordPart, or_assoc] using isWordPart_of_isDigit hd
  | int hd =>
    refine ⟨?_, fun _ d hd' => ⟨_, Matches.int (hd.snoc hd')⟩⟩
    rintro rfl
    exact absurd (hd.2 _ hmem) (by decide)
  | @float whole fraction hw hf =>
    refine ⟨?_, fun _ d hd => ⟨.literal .float, ?_⟩⟩
    · rintro rfl
      rcases List.mem_append.mp hmem with hmem | hmem
      · exact absurd (hw.2 _ hmem) (by decide)
      · rcases List.mem_cons.mp hmem with he | hmem
        · exact absurd he (by decide)
        · exact absurd (hf.2 _ hmem) (by decide)
    · rw [List.append_assoc, List.cons_append]
      exact Matches.float hw (hf.snoc hd)
  | @string body _ =>
    have hl : ('"' :: (body ++ ['"'])).getLast? = some '"' := by simp [List.getLast?_cons]
    obtain rfl := Option.some.inj (hl.symm.trans hc)
    exact ⟨by decide, fun h => absurd h (by decide)⟩
  | operator o =>
    have ht := table_last _ (operator_mem_table o) c hc
    exact ⟨ht.1, fun h => by simp [ht.2] at h⟩
  | delimiter d =>
    have ht := table_last _ (delimiter_mem_table d) c hc
    exact ⟨ht.1, fun h => by simp [ht.2] at h⟩

/-- Units that end in a carriage return can go on by a line feed. -/
theorem Grammar.Units.snoc_lineFeed {cs : List Char} (h : Units cs) (hc : cs.getLast? = some '\r') :
    Units (cs ++ ['\n']) := by
  induction h with
  | nil => simp at hc
  | @plain c cs h1 h2 h3 h4 hu ih =>
    cases cs with
    | nil => exact absurd (by simpa using hc) h3
    | cons d cs => exact Units.plain h1 h2 h3 h4 (ih (by simpa using hc))
  | @escapedBreak cs hu ih =>
    cases cs with
    | nil => simp at hc
    | cons d cs => exact Units.escapedBreak (ih (by simpa using hc))
  | @escaped c cs hu ih =>
    cases cs with
    | nil =>
      obtain rfl : c = '\r' := by simpa using hc
      exact Units.escapedBreak Units.nil
    | cons d cs => exact Units.escaped (ih (by simpa using hc))

/-- The longest text with a property cannot go on by the next character. -/
theorem Grammar.LongestPrefix.not_snoc {P : List Char → Prop} {text rest : List Char}
    (h : LongestPrefix P text (text ++ rest)) {d : Char} (hd : rest.head? = some d) : ¬P (text ++ [d]) := by
  intro hp
  obtain ⟨rest, rfl⟩ := List.head?_eq_some_iff.mp hd
  have hl := h.2.2 (text ++ [d]) hp ⟨rest, by simp⟩
  simp only [List.length_append, List.length_cons, List.length_nil] at hl
  omega

/-- The seam behind a token: what the grammar reads is not cut. -/
theorem Grammar.Reads.seam {kind : Kind} {text rest : List Char} (h : Reads kind text rest)
    (hb : ¬StartsBetween (text ++ rest)) : Seam text rest := by
  intro c d hc hd
  -- the longest text with a pattern would go on by a digit
  have hlong : ∀ {kind : Kind}, Matches kind text → LongestPrefix HasPattern text (text ++ rest) →
      ¬(c = '\r' ∧ d = '\n') ∧ ¬(c.isDigit = true ∧ d.isDigit = true) := by
    intro kind hm hl
    have hlast := hm.last hc
    exact ⟨fun h => hlast.1 h.1, fun h => hl.not_snoc hd (hlast.2 h.1 d h.2)⟩
  cases h with
  | token hm hl _ => exact hlong hm hl
  | outOfRange hm hl _ => exact hlong hm hl
  | malformed hn hm =>
    cases hm with
    | @brokenString body rest e hl he =>
      obtain rfl : e = d := by simpa using hd
      refine ⟨?_, fun h => ?_⟩
      · rintro ⟨rfl, rfl⟩
        cases body with
        | nil => exact absurd hc (by decide)
        | cons b body => exact hl.not_snoc rfl (hl.1.snoc_lineFeed (by simpa using hc))
      · have hbl : isBlank e = true := (isBlank_iff e).mpr (Or.inr (Or.inr he))
        simp [not_isBlank_of_isDigit h.2] at hbl
    | endlessString => simp at hd
    | loneAmpersand =>
      obtain rfl : '&' = c := by simpa using hc
      exact ⟨fun h => absurd h.1 (by decide), fun h => absurd h.1 (by decide)⟩
    | lonePipe =>
      obtain rfl : '|' = c := by simpa using hc
      exact ⟨fun h => absurd h.1 (by decide), fun h => absurd h.1 (by decide)⟩
    | @unexpected u _ _ _ _ =>
      obtain rfl : u = c := by simpa using hc
      refine ⟨fun h => hb (Or.inl ⟨[u], rest, rfl, Piece.blank (Or.inr (Or.inr (Or.inl h.1)))⟩), fun h => ?_⟩
      exact hn [u] ⟨_, Matches.int ⟨by simp, by simpa using h.1⟩⟩ ⟨rest, rfl⟩

/-! ## Scanners -/

/-- The place behind the mark that a source may begin with. -/
def beginning (source : String) : Position := ⟨byteLength (markOf source), 1, 1⟩

/-- A scanner that has read a text stands behind it in its source, and nothing is cut in two there. -/
structure Scanner.Stands (s : Scanner) (read : List Char) : Prop where
  text : textOf s.source = read ++ s.rest
  position : s.position = (beginning s.source).advance read
  seam : Seam read s.rest

/-- The seam behind a gap. -/
theorem Scanner.seam_gap (s : Scanner) : Seam s.gap s.skip.rest := by
  by_cases hr : s.skip.rest = []
  · rw [hr]
    exact Seam.nil_right _
  · intro c d hc hd
    refine ⟨fun h => ?_, (Trivia.gap_split s.rest hr).not_digits hc hd⟩
    obtain ⟨rest, hrest⟩ := List.head?_eq_some_iff.mp hd
    exact s.not_startsBetween_skip (Or.inl ⟨[d], rest, hrest, Piece.blank (Or.inr (Or.inr (Or.inr h.2)))⟩)

theorem Scanner.stands_ofSource (source : String) : (Scanner.ofSource source).Stands [] := by
  rw [ofSource_eq]
  exact ⟨rfl, rfl, Seam.nil_left _⟩

namespace Scanner.Stands

variable {s : Scanner} {read : List Char}

/-- Behind the gap a scanner has read the gap as well. -/
theorem skip (h : s.Stands read) : s.skip.Stands (read ++ s.gap) := by
  have hs := s.gap_append_skip
  have hseam := h.seam
  rw [← hs] at hseam
  refine ⟨?_, ?_, Seam.append (fun he => ?_) (fun _ => s.seam_gap)⟩
  · rw [List.append_assoc, hs]
    exact h.text
  · rw [hseam.left.uncut.advance_append]
    exact congrArg (fun p => p.advance s.gap) h.position
  · rwa [he] at hseam

/-- Behind a lexeme a scanner has read the lexeme as well. -/
theorem behind (h : s.Stands read) (hb : ¬StartsBetween s.rest) {l : Lexeme} {rest : List Char}
    (hl : Lexeme.read? s.rest = some (l, rest)) : (s.behind l rest).Stands (read ++ l.text) := by
  have ht := Lexeme.text_append_of_read? s.rest rest l hl
  have hr := Lexeme.reads_of_read? s.rest rest l hl
  have hseam := h.seam
  rw [← ht] at hseam hb
  refine ⟨?_, ?_, Seam.append (fun he => ?_) (fun _ => hr.seam hb)⟩
  · rw [List.append_assoc]
    exact h.text.trans (by rw [← ht]; rfl)
  · rw [hseam.left.uncut.advance_append]
    exact congrArg (fun p => p.advance l.text) h.position
  · exact absurd he (Lexeme.text_ne_nil_of_read? s.rest rest l hl)

end Scanner.Stands

end MiniLex
