import MiniLex.Proofs.Located
import MiniLex.Scanner.Checked

/-!
# Scans that check their counts

A scan passes over its text once and in order, so whether all lines and columns on the way can be counted is told by the text
alone (`Scanner.scan?_eq`). If they can, the scan gives what any scan gives, and no count has started over
(`eq_of_tokenize?`). A source that is not longer than the numbers go is scanned to its end (`tokenize?_of_length`).
-/

namespace MiniLex

/-! ## Going on -/

namespace Position

variable {p q : Position} {cs ds : List Char}

theorem right?_eq_some {c : Char} : p.right? c = some q ↔ p.column.toNat + 1 < UInt32.size ∧ p.right c = q := by
  rw [right?, Option.ite_none_right_eq_some, Option.some.injEq]

theorem newline?_eq_some : p.newline? = some q ↔ p.line.toNat + 1 < UInt32.size ∧ p.nextLine 0 = q := by
  rw [newline?, Option.ite_none_right_eq_some, Option.some.injEq]

theorem toNat_line_nextLine (h : p.line.toNat + 1 < UInt32.size) (bytes : Nat) :
    (p.nextLine bytes).line.toNat = p.line.toNat + 1 := toNat_add_ofNat h

theorem toNat_column_right (h : p.column.toNat + 1 < UInt32.size) (c : Char) :
    (p.right c).column.toNat = p.column.toNat + 1 := toNat_add_ofNat h

/-- Going on with counts that are checked leads to the place that it leads to without, and no line has been lost. -/
theorem eq_advance_of_advance? (h : p.advance? cs = some q) :
    q = p.advance cs ∧ q.line.toNat = p.line.toNat + lineBreaks cs := by
  induction p, cs using advance?.induct generalizing q with
  | case1 p =>
    obtain rfl := Option.some.inj h
    exact ⟨rfl, rfl⟩
  | case2 p cs ih =>
    simp only [advance?.eq_2, Option.bind_eq_bind, Option.bind_eq_some_iff, right?_eq_some, newline?_eq_some] at h
    obtain ⟨_, ⟨-, rfl⟩, _, ⟨-, rfl⟩, _, ⟨hline, rfl⟩, h⟩ := h
    obtain ⟨hq, hcount⟩ := ih _ h
    have hplace : (((p.right '\r').right '\n').nextLine 0) = p.nextLine 2 := rfl
    rw [hplace] at hq hcount
    refine ⟨hq, ?_⟩
    rw [hcount, toNat_line_nextLine (p := p) hline, lineBreaks_pair]
    omega
  | case3 p c cs hn ih =>
    simp only [advance?.eq_3 _ _ _ hn, Option.bind_eq_bind, Option.bind_eq_some_iff, right?_eq_some] at h
    obtain ⟨_, ⟨-, rfl⟩, h⟩ := h
    by_cases hb : isBreak c = true
    · rw [if_pos hb] at h
      simp only [Option.bind_eq_some_iff, newline?_eq_some] at h
      obtain ⟨_, ⟨hline, rfl⟩, h⟩ := h
      obtain ⟨hq, hcount⟩ := ih _ h
      have hplace : (p.right c).nextLine 0 = p.nextLine 1 := by
        simp only [right, nextLine, utf8Size_of_isBreak hb, Nat.add_zero]
      rw [hplace] at hq hcount
      refine ⟨by rw [hq, advance.eq_3 _ _ _ hn, if_pos hb], ?_⟩
      rw [hcount, toNat_line_nextLine (p := p) hline, lineBreaks_cons_of_break hn hb]
      omega
    · rw [if_neg hb] at h
      obtain ⟨hq, hcount⟩ := ih _ h
      refine ⟨by rw [hq, advance.eq_3 _ _ _ hn, if_neg hb], ?_⟩
      rw [hcount, lineBreaks_cons_of_unbroken (Bool.eq_false_iff.mpr hb)]
      rfl

/-- Two texts that cut no line break in two are counted one after the other. -/
theorem advance?_append (h : Uncut cs ds) (p : Position) :
    p.advance? (cs ++ ds) = (p.advance? cs).bind (fun q => q.advance? ds) := by
  induction p, cs using advance?.induct with
  | case1 p => rfl
  | case2 p cs ih =>
    simp only [List.cons_append, advance?.eq_2, Option.bind_eq_bind, Option.bind_assoc, ih _ h.tail.tail]
  | case3 p c cs hn ih =>
    have hn' : ∀ es, c = '\r' → cs ++ ds = '\n' :: es → False := by
      rintro es rfl he
      cases cs with
      | nil => exact h ⟨rfl, by simp [show ds = _ from he]⟩
      | cons d cs => exact hn cs rfl (by rw [(List.cons.inj he).1])
    rw [List.cons_append, advance?.eq_3 _ _ _ hn, advance?.eq_3 _ _ _ hn']
    by_cases hb : isBreak c = true
    · simp only [if_pos hb, Option.bind_eq_bind, Option.bind_assoc, ih _ h.tail]
    · simp only [if_neg hb, Option.bind_eq_bind, Option.bind_assoc, ih _ h.tail]

/-- A text that is not longer than the numbers go from a place on can be counted. -/
theorem isSome_advance? (hline : p.line.toNat + cs.length < UInt32.size)
    (hcolumn : p.column.toNat + cs.length < UInt32.size) : (p.advance? cs).isSome := by
  induction p, cs using advance?.induct with
  | case1 p => rfl
  | case2 p cs ih =>
    simp only [List.length_cons] at hline hcolumn
    have hr := toNat_column_right (p := p) (by omega) '\r'
    have h1 : p.right? '\r' = some (p.right '\r') := right?_eq_some.mpr ⟨by omega, rfl⟩
    have h2 : (p.right '\r').right? '\n' = some ((p.right '\r').right '\n') := right?_eq_some.mpr ⟨by omega, rfl⟩
    have hlast : p.line.toNat + 1 < UInt32.size := by omega
    have h3 : ((p.right '\r').right '\n').newline? = some (p.nextLine 2) := newline?_eq_some.mpr ⟨hlast, rfl⟩
    have hnext := toNat_line_nextLine hlast 2
    have hone : (p.nextLine 2).column.toNat = 1 := rfl
    simp only [advance?.eq_2, h1, h2, h3, Option.bind_eq_bind, Option.bind_some]
    exact ih _ (by omega) (by omega)
  | case3 p c cs hn ih =>
    rw [List.length_cons] at hline hcolumn
    have hright := toNat_column_right (p := p) (by omega) c
    have h1 : p.right? c = some (p.right c) := right?_eq_some.mpr ⟨by omega, rfl⟩
    have hsame : (p.right c).line.toNat = p.line.toNat := rfl
    simp only [advance?.eq_3 _ _ _ hn, h1, Option.bind_eq_bind, Option.bind_some]
    split
    · have hlast : (p.right c).line.toNat + 1 < UInt32.size := by omega
      have hnext := toNat_line_nextLine hlast 0
      have hone : ((p.right c).nextLine 0).column.toNat = 1 := rfl
      rw [newline?_eq_some.mpr ⟨hlast, rfl⟩, Option.bind_some]
      exact ih _ (by omega) (by omega)
    · exact ih _ (by omega) (by omega)

end Position

/-! ## Scanning -/

namespace Scanner

variable {s : Scanner} {l : Lexeme} {rest : List Char}

/-- The text in front of a lexeme, the lexeme and the text behind it are counted one after the other. -/
theorem advance?_rest (hl : Lexeme.read? s.skip.rest = some (l, rest)) : s.position.advance? s.rest =
    (s.position.advance? s.gap).bind (fun q => (q.advance? l.text).bind (fun r => r.advance? rest)) := by
  have htext := Lexeme.text_append_of_read? s.skip.rest rest l hl
  have hgap : Uncut s.gap (l.text ++ rest) := by
    rw [htext]
    exact s.seam_gap.uncut
  have hcut : Uncut l.text rest := by
    refine ((Lexeme.reads_of_read? s.skip.rest rest l hl).seam ?_).uncut
    rw [htext]
    exact s.not_startsBetween_skip
  simp only [← gap_append_text hl, Position.advance?_append hgap, Position.advance?_append hcut]

theorem scan?_stop (h : s.skip.rest = []) : s.scan? = (s.position.advance? s.rest).map (fun _ => s.scan) := by
  have hr := read?_of_nil h
  have hgap : Trivia.concat (Trivia.split s.rest).1 = s.rest := (lastGap_skip h).1
  rw [scan?, hgap, scan_stop s h]
  cases s.position.advance? s.rest with
  | none => rfl
  | some q =>
    simp only
    split
    · rfl
    · next hs => simp [hr] at hs

/-- Where a lexeme is read behind the gap, a scan that checks its counts needs both to be counted, and goes on behind. -/
theorem scan?_step (hl : Lexeme.read? s.skip.rest = some (l, rest)) : s.scan? =
    (s.position.advance? s.gap).bind (fun _ => (s.skip.position.advance? l.text).bind (fun _ =>
      (s.skip.behind l rest).scan?.map (Scan.cons (s.skip.stepOver l rest)))) := by
  have hr := read?_of_lexeme hl
  have hgap : Trivia.concat (Trivia.split s.rest).1 = s.gap := rfl
  rw [scan?, hgap]
  cases s.position.advance? s.gap with
  | none => rfl
  | some q =>
    simp only [Option.bind_some]
    split
    · next hs => simp [hr] at hs
    · next step hs =>
      obtain rfl := Option.some.inj (hr.symm.trans hs)
      rw [lexeme_stepOver]
      cases s.skip.position.advance? l.text with
      | none => rfl
      | some r => rfl

/-- A scan that checks its counts gives what any scan gives, unless its text cannot be counted. -/
theorem scan?_eq (s : Scanner) : s.scan? = (s.position.advance? s.rest).map (fun _ => s.scan) := by
  induction s using scan_induction with
  | stop s hs =>
    rw [scan?_stop hs, scan_stop s hs]
  | step s l rest hl ih =>
    rw [scan?_step hl, advance?_rest hl]
    cases hq : s.position.advance? s.gap with
    | none => rfl
    | some q =>
      obtain rfl : q = s.skip.position := (Position.eq_advance_of_advance? hq).1
      simp only [Option.bind_some]
      cases hp : s.skip.position.advance? l.text with
      | none => rfl
      | some r =>
        obtain rfl : r = (s.skip.behind l rest).position := (Position.eq_advance_of_advance? hp).1
        simp only [ih, Option.bind_some, Option.map_map]
        rfl

end Scanner

/-- A scan that checks its counts comes to an end exactly if its text can be counted, and gives what any scan gives. -/
theorem tokenize?_eq (source : String) :
    tokenize? source = ((beginning source).advance? (textOf source)).map (fun _ => tokenize source) := by
  rw [tokenize?, Scanner.scan?_eq, Scanner.rest_ofSource, Scanner.position_ofSource]
  rfl

/-- A checked scan that comes to an end has counted no further than numbers of 32 bits go. -/
theorem eq_of_tokenize? {source : String} {scan : Scan} (h : tokenize? source = some scan) :
    scan = tokenize source ∧ lineBreaks source.toList + 1 < UInt32.size := by
  rw [tokenize?_eq, Option.map_eq_some_iff] at h
  obtain ⟨q, hq, rfl⟩ := h
  obtain ⟨-, hcount⟩ := Position.eq_advance_of_advance? hq
  have hone : (beginning source).line.toNat = 1 := rfl
  have hlt := q.line.toNat_lt_size
  rw [lineBreaks_toList]
  exact ⟨rfl, by omega⟩

/-- A source that is not longer than the numbers go is scanned to its end. -/
theorem tokenize?_of_length {source : String} (h : source.length + 1 < UInt32.size) :
    tokenize? source = some (tokenize source) := by
  have hlength := length_textOf_le source
  have hone : (beginning source).line.toNat = 1 ∧ (beginning source).column.toNat = 1 := ⟨rfl, rfl⟩
  have hsome := @Position.isSome_advance? (beginning source) (textOf source) (by omega) (by omega)
  obtain ⟨q, hq⟩ := Option.isSome_iff_exists.mp hsome
  rw [tokenize?_eq, hq]
  rfl

end MiniLex
