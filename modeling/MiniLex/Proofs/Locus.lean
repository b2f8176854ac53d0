import Mathlib.Data.List.Basic
import Mathlib.Data.List.Induction
import MiniLex.Proofs.Located
import MiniLex.Proofs.Unambiguous
import MiniLex.Report.Reporter

/-!
# The place in a report

A report gives the place of a diagnostic twice: in its headline as the scanner counted it, and behind the name of the file as
it is found from the bytes that the diagnostic covers. The two are counted by different rules. To a report only a line feed
ends a line, and the mark that a source may begin with is a character of the first line (`locus_byteLength`). So they agree
just where no carriage return without a line feed stands in front of the diagnostic, and where in addition the source has no
mark or the diagnostic is not in the first line (`report_locus`). A scanner counts in 32 bits and a report does not, so that is
said of sources whose lines and columns are all numbers of 32 bits.
-/

namespace MiniLex

/-! ## Lines that end in line feeds -/

/-- The characters of a text behind its last line feed. -/
def lastLine : List Char → List Char
  | [] => []
  | c :: cs => if '\n' ∈ cs then lastLine cs else if c = '\n' then cs else c :: cs

/-- How many carriage returns of a text have no line feed behind them. -/
def loneReturns : List Char → Nat
  | [] => 0
  | '\r' :: '\n' :: cs => loneReturns cs
  | c :: cs => loneReturns cs + if c = '\r' then 1 else 0

theorem lastLine_of_notMem {cs : List Char} (h : '\n' ∉ cs) : lastLine cs = cs := by
  cases cs with
  | nil => rfl
  | cons c cs =>
    rw [List.mem_cons, not_or] at h
    rw [lastLine, if_neg h.2, if_neg (Ne.symm h.1)]

theorem lastLine_lineFeed (cs ds : List Char) : lastLine (cs ++ '\n' :: ds) = lastLine ds := by
  induction cs with
  | nil =>
    rw [List.nil_append, lastLine]
    by_cases h : '\n' ∈ ds
    · rw [if_pos h]
    · rw [if_neg h, if_pos rfl, lastLine_of_notMem h]
  | cons c cs ih =>
    rw [List.cons_append, lastLine, if_pos (by simp), ih]

theorem lastLine_concat {d : Char} (hd : d ≠ '\n') (cs : List Char) : lastLine (cs ++ [d]) = lastLine cs ++ [d] := by
  induction cs with
  | nil => exact if_neg hd
  | cons c cs ih =>
    have hmem : '\n' ∈ cs ++ [d] ↔ '\n' ∈ cs := by simp [Ne.symm hd]
    rw [List.cons_append, lastLine, lastLine]
    by_cases hm : '\n' ∈ cs
    · rw [if_pos (hmem.mpr hm), if_pos hm, ih]
    · rw [if_neg (fun h => hm (hmem.mp h)), if_neg hm]
      split <;> rfl

/-- A text has no line feed, or it is one without, a line feed, and a text behind it. -/
theorem lineFeed_induction {motive : List Char → Prop} (last : ∀ cs, '\n' ∉ cs → motive cs)
    (line : ∀ body cs, '\n' ∉ body → motive cs → motive (body ++ '\n' :: cs)) (cs : List Char) : motive cs := by
  induction hn : cs.length using Nat.strongRecOn generalizing cs with
  | ind n ih =>
    by_cases h : '\n' ∈ cs
    · obtain ⟨body, rest, rfl, hbody⟩ := List.eq_append_cons_of_mem h
      refine line body rest hbody (ih rest.length ?_ rest rfl)
      simp only [List.length_append, List.length_cons] at hn
      omega
    · exact last cs h

/-- A text begins with a line, which is empty only if there is no other. -/
theorem splitLines_eq_cons (cs : List Char) : ∃ first more, splitLines cs = first :: more ∧ (more = [] ∨ first ≠ []) := by
  cases cs with
  | nil => exact ⟨[], [], rfl, Or.inl rfl⟩
  | cons c cs =>
    rw [splitLines]
    split
    · exact ⟨[c], _, rfl, Or.inr (List.cons_ne_nil _ _)⟩
    · split
      · exact ⟨[c], [], rfl, Or.inl rfl⟩
      · exact ⟨_, _, rfl, Or.inr (List.cons_ne_nil _ _)⟩

theorem splitLines_lineFeed {body : List Char} (h : '\n' ∉ body) (cs : List Char) :
    splitLines (body ++ '\n' :: cs) = (body ++ ['\n']) :: splitLines cs := by
  induction body with
  | nil => rw [List.nil_append, splitLines, if_pos rfl, List.nil_append]
  | cons c body ih =>
    rw [List.mem_cons, not_or] at h
    rw [List.cons_append, splitLines, if_neg (Ne.symm h.1), ih h.2]
    rfl

/-- Text without a line feed belongs to the line behind it. -/
theorem splitLines_append {cs : List Char} (h : '\n' ∉ cs) {ds first : List Char} {more : List (List Char)}
    (hd : splitLines ds = first :: more) : splitLines (cs ++ ds) = (cs ++ first) :: more := by
  induction cs with
  | nil => exact hd
  | cons c cs ih =>
    rw [List.mem_cons, not_or] at h
    rw [List.cons_append, splitLines, if_neg (Ne.symm h.1), ih h.2]
    rfl

/-! ## The place of an offset -/

namespace SourceLine

/-- The characters of a text that end within its bytes are all of them, whatever stands behind it. -/
theorem charactersWithin_append (cs ds : List Char) : charactersWithin (cs ++ ds) (byteLength cs) = cs.length := by
  induction cs with
  | nil =>
    cases ds with
    | nil => rfl
    | cons d ds =>
      have := d.utf8Size_pos
      rw [List.nil_append, charactersWithin, if_neg (by simp only [byteLength]; omega)]
      rfl
  | cons c cs ih =>
    rw [List.cons_append, byteLength, charactersWithin, if_pos (Nat.le_add_right _ _), Nat.add_sub_cancel_left, ih]
    rfl

/-- Of the lines of a text the last one that begins in front of an offset or there is the one behind the line feeds in front
of it. -/
theorem getLast?_takeWhile_enumerate (front rest : List Char) (number start : Nat) : ∃ begin text,
    ((enumerate number start (splitLines (front ++ rest))).takeWhile
        (fun l => l.start ≤ start + byteLength front)).getLast? =
      some ⟨number + front.count '\n', begin, lastLine front ++ text⟩ ∧
    begin + byteLength (lastLine front) = start + byteLength front := by
  induction front using lineFeed_induction generalizing number start with
  | last front h =>
    obtain ⟨first, more, hsplit, hmore⟩ := splitLines_eq_cons rest
    refine ⟨start, first, ?_, by rw [lastLine_of_notMem h]⟩
    -- the line behind, if there is one, begins behind the offset
    have hnext : (enumerate (number + 1) (start + byteLength (front ++ first)) more).takeWhile
        (fun l => l.start ≤ start + byteLength front) = [] := by
      cases more with
      | nil => rfl
      | cons next more =>
        have hpos := byteLength_pos (hmore.resolve_left (List.cons_ne_nil _ _))
        rw [enumerate, List.takeWhile_cons_of_neg]
        simp only [decide_eq_true_eq, byteLength_append]
        omega
    rw [splitLines_append h hsplit, enumerate, List.takeWhile_cons_of_pos (by simp), hnext, lastLine_of_notMem h,
      List.count_eq_zero.mpr h]
    rfl
  | line body front h ih =>
    obtain ⟨begin, text, hlast, hbegin⟩ := ih (number + 1) (start + byteLength (body ++ ['\n']))
    have hlength : start + byteLength (body ++ ['\n']) + byteLength front = start + byteLength (body ++ '\n' :: front) := by
      simp only [byteLength_append, byteLength]
      omega
    refine ⟨begin, text, ?_, ?_⟩
    · have hcount : number + (body ++ '\n' :: front).count '\n' = number + 1 + front.count '\n' := by
        rw [List.count_append, List.count_eq_zero.mpr h, List.count_cons_self]
        omega
      rw [hlength] at hlast
      rw [List.append_assoc, List.cons_append, splitLines_lineFeed h, enumerate,
        List.takeWhile_cons_of_pos (by simp), List.getLast?_cons, hlast, lastLine_lineFeed, hcount]
      rfl
    · rw [lastLine_lineFeed, hbegin, hlength]

end SourceLine

/-- To a report the line of an offset counts the line feeds in front of it, and the column the characters behind the last of
them. -/
theorem locus_byteLength {text : String} {front rest : List Char} (h : text.toList = front ++ rest) :
    Report.locus text (byteLength front) = (1 + front.count '\n', (lastLine front).length + 1) := by
  obtain ⟨begin, behind, hlast, hbegin⟩ := SourceLine.getLast?_takeWhile_enumerate front rest 1 0
  rw [Nat.zero_add] at hlast hbegin
  have hwithin : byteLength front - begin = byteLength (lastLine front) := by omega
  unfold Report.locus SourceLine.containing SourceLine.ofText
  rw [h, List.getLastD_eq_getLast?, hlast]
  simp only [Option.getD_some, SourceLine.column, hwithin, SourceLine.charactersWithin_append]

/-! ## The place that is reached -/

/-- A carriage return counts if no line feed stands behind it. -/
theorem loneReturns_cons {c : Char} {cs : List Char} (hn : ∀ tail, c = '\r' → cs = '\n' :: tail → False) :
    loneReturns (c :: cs) = loneReturns cs + if c = '\r' then 1 else 0 := loneReturns.eq_3 c cs hn

/-- A character behind a text that is no line feed leaves the carriage returns in front of it alone. -/
theorem loneReturns_concat {d : Char} (hd : d ≠ '\n') (cs : List Char) :
    loneReturns (cs ++ [d]) = loneReturns cs + if d = '\r' then 1 else 0 := by
  fun_induction loneReturns cs with
  | case1 =>
    rw [List.nil_append, loneReturns_cons (fun _ _ h => by simp at h)]
    rfl
  | case2 cs ih => exact ih
  | case3 c cs hn ih =>
    have hn' : ∀ tail, c = '\r' → cs ++ [d] = '\n' :: tail → False := by
      intro tail hc h
      cases cs with
      | nil => exact hd (List.cons.inj h).1
      | cons e cs => exact hn cs hc (by rw [(List.cons.inj h).1])
    rw [List.cons_append, loneReturns_cons hn', ih]
    omega

/-- The line breaks of a text are its line feeds and the carriage returns that have none. -/
theorem lineBreaks_eq (cs : List Char) : lineBreaks cs = cs.count '\n' + loneReturns cs := by
  fun_induction loneReturns cs with
  | case1 => rfl
  | case2 cs ih =>
    rw [lineBreaks_pair, ih, List.count_cons_of_ne (by decide), List.count_cons_self]
    omega
  | case3 c cs hn ih =>
    by_cases hb : isBreak c = true
    · rw [lineBreaks_cons_of_break hn hb, ih]
      rcases (isBreak_iff c).mp hb with rfl | rfl
      · rw [List.count_cons_of_ne (by decide), if_pos rfl]
        omega
      · rw [List.count_cons_self, if_neg (by decide)]
        omega
    · have hc : c ≠ '\r' ∧ c ≠ '\n' := by rwa [isBreak_iff, not_or] at hb
      rw [lineBreaks_cons_of_unbroken (Bool.eq_false_iff.mpr hb), ih, List.count_cons_of_ne hc.2, if_neg hc.1]
      rfl

/-- The line behind a text that cuts no line break in two counts the line breaks of the text. -/
theorem lineAt_behind {cs ds : List Char} (h : Uncut cs ds) :
    lineAt (cs ++ ds) (offsetOf (cs ++ ds) cs.length) = 1 + lineBreaks cs := by
  rw [lineAt, breaksUpTo_offsetOf (by simp), List.length_map, lineBreaks, List.countP_eq_length_filter]
  refine congrArg (1 + List.length ·) (List.filter_congr (fun i hi => ?_))
  have hi := List.mem_range.mp hi
  have hhere : (cs ++ ds)[i]? = cs[i]? := List.getElem?_append_left hi
  rw [breakEndsAt, breakEndsAt, hhere]
  rcases Nat.lt_or_eq_of_le (Nat.succ_le_of_lt hi) with hlt | heq
  · rw [List.getElem?_append_left hlt]
  · have hnone : cs[i + 1]? = none := List.getElem?_eq_none (Nat.le_of_eq heq.symm)
    have hnext : (cs ++ ds)[i + 1]? = ds.head? := by
      rw [List.getElem?_append_right (Nat.le_of_eq heq.symm), heq, Nat.sub_self, List.head?_eq_getElem?]
    have hlast : cs.getLast? = cs[i]? := by
      rw [List.getLast?_eq_getElem?, ← heq]
      rfl
    rw [hnone, hnext]
    by_cases hc : cs[i]? = some '\r'
    · have hd : ds.head? ≠ some '\n' := fun hd => h ⟨hlast.trans hc, hd⟩
      rw [bne_iff_ne.mpr hd]
      rfl
    · rw [beq_eq_false_iff_ne.mpr hc, Bool.false_and, Bool.false_and]

/-- The column behind a text in which every carriage return has its line feed counts the characters behind the last one. -/
theorem columnAt_behind (cs : List Char) : ∀ ds, loneReturns cs = 0 →
    columnAt (cs ++ ds) (offsetOf (cs ++ ds) cs.length) = (lastLine cs).length + 1 := by
  induction cs using List.reverseRecOn with
  | nil =>
    intro ds _
    exact (line_column_zero ds).2
  | append_singleton cs c ih =>
    intro ds h
    have hsplit : cs ++ [c] ++ ds = cs ++ c :: ds := by rw [List.append_assoc, List.singleton_append]
    have hc : (cs ++ c :: ds)[cs.length]? = some c := by simp
    rw [hsplit, List.length_append, List.length_singleton]
    by_cases hfeed : c = '\n'
    · have hb : breakEndsAt (cs ++ c :: ds) cs.length = true := by simp [breakEndsAt_length, hfeed]
      rw [(line_column_succ_of_break hc hb).2, hfeed, lastLine_lineFeed]
      rfl
    · rw [loneReturns_concat hfeed] at h
      have hreturn : c ≠ '\r' := fun hr => by simp [hr] at h
      have hb : breakEndsAt (cs ++ c :: ds) cs.length = false := by simp [breakEndsAt_length, hfeed, hreturn]
      rw [(line_column_succ hc hb).2, ih (c :: ds) (by omega), lastLine_concat hfeed, List.length_append]
      rfl

/-! ## The mark -/

/-- A text behind the mark has the line feeds and the carriage returns that it has without, and its last line is longer by the
mark if it is the first as well. -/
theorem mark_append (source : String) (read : List Char) : (markOf source ++ read).count '\n' = read.count '\n' ∧
    loneReturns (markOf source ++ read) = loneReturns read ∧
    (lastLine (markOf source ++ read)).length =
      (lastLine read).length + if '\n' ∈ read then 0 else (markOf source).length := by
  have hmark : markOf source = [] ∨ markOf source = [Scanner.byteOrderMark] := by
    unfold markOf
    split
    · exact Or.inr rfl
    · exact Or.inl rfl
  rcases hmark with hm | hm
  · rw [hm]
    refine ⟨rfl, rfl, ?_⟩
    simp
  · have hreturn : Scanner.byteOrderMark ≠ '\r' := by decide
    have hfeed : Scanner.byteOrderMark ≠ '\n' := by decide
    rw [hm, List.singleton_append]
    refine ⟨List.count_cons_of_ne hfeed, ?_, ?_⟩
    · rw [loneReturns_cons (fun _ h => absurd h hreturn), if_neg hreturn]
      rfl
    · rw [lastLine]
      by_cases hr : '\n' ∈ read
      · rw [if_pos hr, if_pos hr]
        rfl
      · rw [if_neg hr, if_neg hfeed, if_neg hr, lastLine_of_notMem hr]
        rfl

/-- A place that is reached stands behind some text, mark included. The line of its offset counts the line feeds there and the
carriage returns without one. Its column is the one behind the last line feed exactly if there are none of these and the mark is
not in the same line. -/
theorem Reached.front {source : String} {p : Position} (h : Reached source p) :
    ∃ front rest, source.toList = front ++ rest ∧ byteLength front = p.offset ∧
      (placeOf source p.offset).1 = 1 + front.count '\n' + loneReturns front ∧
      (loneReturns front = 0 →
        ((placeOf source p.offset).2 = (lastLine front).length + 1 ↔ markOf source = [] ∨ '\n' ∈ front)) := by
  obtain ⟨read, rest, htext, hseam, rfl⟩ := h
  obtain ⟨hcount, hreturns, hlast⟩ := mark_append source read
  have hbehind : ((beginning source).advance read).offset - byteLength (markOf source) =
      offsetOf (read ++ rest) read.length := by
    have hoffset : (beginning source).offset = byteLength (markOf source) := rfl
    rw [offset_advance, hoffset, Nat.add_sub_cancel_left, offsetOf, List.take_left]
  refine ⟨markOf source ++ read, rest, ?_, ?_, ?_, fun hr => ?_⟩
  · rw [List.append_assoc, ← htext, markOf_append_textOf]
  · rw [offset_advance, byteLength_append]
    rfl
  · simp only [placeOf, htext, hbehind]
    rw [lineAt_behind hseam.uncut, lineBreaks_eq, hcount, hreturns, Nat.add_assoc]
  · rw [hreturns] at hr
    have hmem : '\n' ∈ markOf source ++ read ↔ '\n' ∈ read := by
      rw [← List.count_pos_iff, hcount, List.count_pos_iff]
    simp only [placeOf, htext, hbehind]
    rw [columnAt_behind read rest hr, hlast, hmem]
    by_cases hm : '\n' ∈ read
    · simp [hm]
    · rw [if_neg hm, ← List.length_eq_zero_iff]
      constructor
      · intro hc
        exact Or.inl (by omega)
      · rintro (hc | hc)
        · omega
        · exact absurd hc hm

/-! ## Reports -/

/-- A report begins with its headline, and behind it stand the name of the file, a line and a column. -/
def Report.Points (report : String) (d : Diagnostic) (name : String) (line column : Nat) : Prop :=
  ∃ width rest, report = "error: " ++ d.render ++ "\n" ++ repeated width ' ' ++ " ┌─ " ++ name ++ ":" ++ toString line ++
    ":" ++ toString column ++ "\n" ++ rest

/-- The line and the column of a report are those of the byte that the diagnostic begins at. -/
theorem Report.points_ink (file : SourceFile) (id : Nat) (d : Diagnostic) :
    Points (Ink.written false (ink file (d.annotation id))) d file.name (locus file.text d.span.start).1
      (locus file.text d.span.start).2 := by
  obtain ⟨width, more, hrows⟩ : ∃ width more, rows file (d.annotation id) =
      [.style severityStyle, .text "error", .style headlineStyle, .text (": " ++ d.render), .reset] ::
        (gutter width "┌─" ++ [.text (" " ++ file.name ++ ":" ++ toString (locus file.text d.span.start).1 ++ ":" ++
          toString (locus file.text d.span.start).2)]) :: more := ⟨_, _, rfl⟩
  have hword : "error: " = "error" ++ ": " := by decide
  have hframe : " ┌─ " = " " ++ "┌─" ++ " " := by decide
  refine ⟨width, Ink.written false (more.flatMap (· ++ [.text "\n"])), ?_⟩
  rw [ink, hrows, hword, hframe]
  simp [-String.reduceAppend, gutter, String.append_assoc]

/-- No report gives two places. -/
theorem Report.Points.unique {report name : String} {d : Diagnostic} {line line' column column' : Nat}
    (h : Points report d name line column) (h' : Points report d name line' column') : line = line' ∧ column = column' := by
  obtain ⟨width, rest, rfl⟩ := h
  obtain ⟨width', rest', he⟩ := h'
  have hspaces : ∀ n, '┌' ∉ List.replicate n ' ' ++ [' '] := by
    intro n hm
    rcases List.mem_append.mp hm with hm | hm
    · exact absurd (List.eq_of_mem_replicate hm) (by decide)
    · exact absurd hm (by decide)
  have hbox : " ┌─ ".toList = [' ', '┌', '─', ' '] := rfl
  have hcolon : ":".toList = [':'] := rfl
  have hfeed : "\n".toList = ['\n'] := rfl
  have hl := congrArg String.toList he
  simp only [String.toList_append, List.append_assoc, List.append_cancel_left_eq, repeated, String.toList_ofList, hbox,
    hcolon, hfeed, List.cons_append, List.nil_append] at hl
  rw [List.append_cons (List.replicate width ' '), List.append_cons (List.replicate width' ' ')] at hl
  obtain ⟨-, hplace⟩ := append_cons_inj (hspaces width) (hspaces width') (List.cons.inj hl).2
  simp only [List.cons.injEq, true_and, List.append_cancel_left_eq] at hplace
  obtain ⟨hline, hcolumn⟩ := append_cons_inj (notMem_toString rfl _) (notMem_toString rfl _) hplace
  obtain ⟨hcolumn, -⟩ := append_cons_inj (notMem_toString rfl _) (notMem_toString rfl _) hcolumn
  exact ⟨eq_of_toList_toString hline, eq_of_toList_toString hcolumn⟩

/-- A file that was just entered is reported against. -/
theorem Reporter.emit_add (r : Reporter) (file : SourceFile) (d : Diagnostic) :
    (r.add file).2.emit .standard (r.add file).1 d = ⟨Report.ink file (d.annotation (r.add file).1), true⟩ := by
  have hfile : (r.files ++ [file])[r.files.length]? = some file := by simp
  simp only [add, emit, lookup, Emitter.standard, Diagnostic.annotation, hfile]

theorem Reporter.render_add (r : Reporter) (file : SourceFile) (d : Diagnostic) :
    (r.add file).2.render .standard (r.add file).1 d =
      Ink.written false (Report.ink file (d.annotation (r.add file).1)) := by
  rw [render, emit_add, if_pos rfl]

theorem Report.points_render (r : Reporter) (file : SourceFile) (d : Diagnostic) :
    Points ((r.add file).2.render .standard (r.add file).1 d) d file.name (locus file.text d.span.start).1
      (locus file.text d.span.start).2 := by
  rw [r.render_add]
  exact points_ink file _ d

/-- The report of a diagnostic gives the line that counts the line feeds in front of it and the column behind the last of
them. The headline counts the carriage returns without a line feed as well. So the report gives the line and the column of its
headline exactly if there is none of these in front of the diagnostic, and the mark that the source may begin with is not in
its line. The headline counts in 32 bits, and the last is said of a source that has no other lines and columns. -/
theorem report_locus (r : Reporter) (name source : String) (d : Diagnostic) (hd : d ∈ (tokenize source).diagnostics) :
    let report := (r.add ⟨name, source⟩).2.render .standard (r.add ⟨name, source⟩).1 d
    ∃ front rest, source.toList = front ++ rest ∧ byteLength front = d.span.start ∧
      Report.Points report d name (1 + front.count '\n') ((lastLine front).length + 1) ∧
      d.line = .ofNat (1 + front.count '\n' + loneReturns front) ∧
      (CountsFit source → (Report.Points report d name d.line.toNat d.column.toNat ↔
        loneReturns front = 0 ∧ (markOf source = [] ∨ '\n' ∈ front))) := by
  intro report
  have hreached := (reached_scan _ _ (Scanner.stands_ofSource source)).2 d hd
  rw [Scanner.source_ofSource] at hreached
  obtain ⟨front, rest, hsource, hoffset, hline, hcolumn⟩ := hreached.front
  have hplace : (d.line, d.column) = countedPlaceOf source d.span.start := hreached.line_column
  have hoffset : byteLength front = d.span.start := hoffset
  have hline : (placeOf source d.span.start).1 = 1 + front.count '\n' + loneReturns front := hline
  have hpoints : Report.Points report d name (1 + front.count '\n') ((lastLine front).length + 1) := by
    have hrender := Report.points_render r ⟨name, source⟩ d
    rw [← hoffset, locus_byteLength hsource] at hrender
    exact hrender
  refine ⟨front, rest, hsource, hoffset, hpoints, ?_, fun hfit => ?_⟩
  · rw [← hline]
    exact congrArg Prod.fst hplace
  · have hnumbers := hfit.toNat_countedPlaceOf d.span.start
    rw [← hplace] at hnumbers
    obtain ⟨hl, hc⟩ := Prod.ext_iff.mp hnumbers
    simp only at hl hc
    rw [hl, hc]
    constructor
    · intro h
      obtain ⟨hl, hc⟩ := hpoints.unique h
      have hr : loneReturns front = 0 := by omega
      exact ⟨hr, (hcolumn hr).mp hc.symm⟩
    · rintro ⟨hr, hmark⟩
      have hcolumn : (placeOf source d.span.start).2 = (lastLine front).length + 1 := (hcolumn hr).mpr hmark
      rw [hline, hr, hcolumn]
      exact hpoints

/-- In the second line the mark of a source makes no difference, nor does a carriage return with its line feed. -/
theorem report_locus_secondLine :
    let source := "\uFEFF\"é\r\n\t@"
    let d : Diagnostic := ⟨.unexpectedCharacter '@', 2, 2, ⟨9, 10⟩⟩
    let report := (Reporter.new.add ⟨"m", source⟩).2.render .standard (Reporter.new.add ⟨"m", source⟩).1 d
    d ∈ (tokenize source).diagnostics ∧ CountsFit source ∧
    ∃ front rest, source.toList = front ++ rest ∧ byteLength front = d.span.start ∧
      Report.Points report d "m" (1 + front.count '\n') ((lastLine front).length + 1) ∧
      d.line = .ofNat (1 + front.count '\n' + loneReturns front) ∧
      (Report.Points report d "m" d.line.toNat d.column.toNat ↔ loneReturns front = 0 ∧ (markOf source = [] ∨ '\n' ∈ front)) := by
  intro source d report
  have h : d ∈ (tokenize source).diagnostics := by
    simp only [d, source]
    decide +kernel
  have hfit : CountsFit source := countsFit_of_length (by simp only [source]; decide +kernel)
  clear_value source d
  obtain ⟨front, rest, hsource, hoffset, hpoints, hline, hagree⟩ := report_locus Reporter.new "m" source d h
  exact ⟨h, hfit, front, rest, hsource, hoffset, hpoints, hline, hagree hfit⟩

/-- Behind a carriage return without a line feed, and behind the mark in the first line, a report gives another place than its
headline. -/
theorem not_points_at_headline :
    (∃ d ∈ (tokenize "\r@").diagnostics,
      ¬Report.Points ((Reporter.new.add ⟨"m", "\r@"⟩).2.render .standard 0 d) d "m" d.line.toNat d.column.toNat) ∧
    ∃ d ∈ (tokenize "\uFEFF@").diagnostics,
      ¬Report.Points ((Reporter.new.add ⟨"m", "\uFEFF@"⟩).2.render .standard 0 d) d "m" d.line.toNat d.column.toNat := by
  refine ⟨⟨⟨.unexpectedCharacter '@', 2, 1, ⟨1, 2⟩⟩, by decide +kernel, fun h => ?_⟩,
    ⟨⟨.unexpectedCharacter '@', 1, 1, ⟨3, 4⟩⟩, by decide +kernel, fun h => ?_⟩⟩
  · have hplace := (Report.points_render Reporter.new ⟨"m", "\r@"⟩ _).unique h
    exact absurd hplace.1 (by decide +kernel)
  · have hplace := (Report.points_render Reporter.new ⟨"m", "\uFEFF@"⟩ _).unique h
    exact absurd hplace.2 (by decide +kernel)

end MiniLex
