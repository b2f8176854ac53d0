import Mathlib.Data.List.TakeWhile
import MiniLex.Proofs.Effects
import MiniLex.Proofs.Locus

/-!
# Files and reports

A reporter gives each file that it is shown the next number and keeps it under that number, whatever comes behind it
(`Reporter.enter_eq`). Under a number that it has given, it prints for a diagnostic the very report that it returns, in the
colours of its writer, and that is made of the file and the diagnostic alone (`Reporter.Knows`). Under any other it returns the
line of the diagnostic and prints nothing (`Reporter.Lacks`). What lays out the reports is asked to fail without the file, then
and only then, and before it has laid out anything (`Emitter.Faithful`). A report finds its lines in the file wherever its span
begins and ends (`Report.WithinText`).
-/

namespace MiniLex

/-! ## What lays out reports -/

/-- An emitter fails only where the number is unknown, and then before it has laid out anything. -/
structure Emitter.Faithful (e : Emitter) : Prop where
  finished_iff : ∀ files a, (e files a).finished = true ↔ (files a.file).isSome = true
  silent : ∀ files a, files a.file = none → (e files a).ink = []

theorem Emitter.faithful_standard : Emitter.standard.Faithful := by
  refine ⟨fun files a => ?_, fun files a h => ?_⟩
  · rw [standard]
    split
    · next h => simp [h]
    · next h => simp [h]
  · rw [standard, h]

/-- The report on a file for a diagnostic, whatever number the file has. -/
def Report.on (file : SourceFile) (d : Diagnostic) : List Ink := ink file (d.annotation 0)

/-! ## Reporters that are shown files -/

theorem Channel.put_empty (c : Channel) : c.put "" = c := by
  obtain ⟨failure, received, pending⟩ := c
  cases failure with
  | none => rw [put, String.append_empty]
  | some reason => rfl

namespace Reporter

/-- Enters files one after the other, and gives their numbers. -/
def enter (r : Reporter) : List SourceFile → List Nat × Reporter
  | [] => ([], r)
  | file :: files => ((r.add file).1 :: ((r.add file).2.enter files).1, ((r.add file).2.enter files).2)

/-- Files are numbered in the order in which they come, behind those that are there, and they stand there in that order. -/
theorem enter_eq (r : Reporter) (files : List SourceFile) :
    r.enter files = (List.range' r.files.length files.length, ⟨r.files ++ files, r.choice⟩) := by
  induction files generalizing r with
  | nil => rw [List.append_nil, enter, List.length_nil, List.range'_zero]
  | cons file files ih =>
    rw [enter, ih, add, List.length_cons, List.range'_succ, List.append_assoc, List.length_append, List.length_singleton,
      List.singleton_append]

/-- A reporter has a file under a number. It returns for a diagnostic the text of the report on the file, and what it prints is
the same report in the colours of its writer. Whatever faithful emitter lays them out, the two are one report: they are the same
text where the writer leaves colours out, and changes of colour are all that is printed beside it where it does not. What is
printed goes through the channel at once. -/
structure Knows (r : Reporter) (id : Nat) (file : SourceFile) : Prop where
  render_eq : ∀ d, r.render .standard id d = Ink.written false (Report.on file d)
  handle_eq : ∀ t channel d, (r.sink .standard t id).handle channel d =
    channel.put (Ink.written (r.choice.colours t) (Report.on file d))
  agreed : ∀ e : Emitter, e.Faithful → ∀ d, ∃ ink, r.render e id d = Ink.written false ink ∧
    ∀ t channel, (r.sink e t id).handle channel d = channel.put (Ink.written (r.choice.colours t) ink)
  same : ∀ e : Emitter, e.Faithful → ∀ t, r.choice.colours t = false → ∀ channel d,
    (r.sink e t id).handle channel d = channel.put (r.render e id d)
  printed : ∀ e t received pending (ds : List Diagnostic),
    (r.sink e t id).feed ⟨none, received, pending⟩ (ds.map Event.diagnostic ++ [.flush]) =
      ⟨none, received ++ String.join (ds.map (r.report e t id)), pending⟩

/-- A reporter has no file under a number. It returns for a diagnostic its line, and prints nothing, in front of a flush and
with it. -/
structure Lacks (r : Reporter) (id : Nat) : Prop where
  render_eq : ∀ e : Emitter, e.Faithful → ∀ d, r.render e id d = d.render
  handle_eq : ∀ e : Emitter, e.Faithful → ∀ t channel d, (r.sink e t id).handle channel d = channel
  printed : ∀ e : Emitter, e.Faithful → ∀ t channel (ds : List Diagnostic),
    (r.sink e t id).feed channel (ds.map Event.diagnostic ++ [.flush]) = channel

variable {r : Reporter} {id : Nat} {file : SourceFile} {e : Emitter}

/-- A report against a file that the reporter has is laid out to its end. -/
theorem render_of_lookup (h : r.lookup id = some file) (he : e.Faithful) (d : Diagnostic) :
    r.render e id d = Ink.written false (r.emit e id d).ink := by
  have hfinished : (r.emit e id d).finished = true := by
    rw [emit, he.finished_iff, Diagnostic.annotation, h]
    rfl
  rw [render, if_pos hfinished]

/-- The file that stands at an index is the one that the reporter has under that number. -/
theorem knows_of_lookup (h : r.lookup id = some file) : r.Knows id file := by
  have hink : ∀ d, (r.emit .standard id d).ink = Report.on file d := by
    intro d
    rw [emit, Emitter.standard, Diagnostic.annotation, h]
    rfl
  refine ⟨fun d => ?_, fun t channel d => ?_, fun e he d => ?_, fun e he t hcolours channel d => ?_,
    fun e t received pending ds => feed_sink r e t id ds received pending⟩
  · rw [render_of_lookup h Emitter.faithful_standard, hink]
  · rw [← hink]
    rfl
  · exact ⟨(r.emit e id d).ink, render_of_lookup h he d, fun t channel => rfl⟩
  · rw [render_of_lookup h he, ← hcolours]
    rfl

/-- A reporter has no file behind the last one. -/
theorem lacks_of_lookup (h : r.lookup id = none) : r.Lacks id := by
  have hhandle : ∀ e : Emitter, e.Faithful → ∀ t channel d, (r.sink e t id).handle channel d = channel := by
    intro e he t channel d
    have hreport : r.report e t id d = "" := by
      rw [report, emit, he.silent _ _ h, Ink.written_nil]
    have hput : (r.sink e t id).handle channel d = channel.put (r.report e t id d) := rfl
    rw [hput, hreport, channel.put_empty]
  refine ⟨fun e he d => ?_, hhandle, fun e he t channel ds => ?_⟩
  · have hunfinished : ¬(r.emit e id d).finished = true := by
      rw [emit, he.finished_iff, Diagnostic.annotation, h]
      exact Bool.false_ne_true
    rw [render, if_neg hunfinished]
  · induction ds with
    | nil => rfl
    | cons d ds ih =>
      have hcons : (r.sink e t id).feed channel ((d :: ds).map Event.diagnostic ++ [.flush]) =
          (r.sink e t id).feed ((r.sink e t id).handle channel d) (ds.map Event.diagnostic ++ [.flush]) := rfl
      rw [hcons, hhandle e he, ih]

end Reporter

/-! ## The lines of a report -/

namespace SourceLine

theorem enumerate_numbers (number start : Nat) (texts : List (List Char)) :
    (∀ l ∈ enumerate number start texts, number ≤ l.number) ∧
      (enumerate number start texts).Pairwise (fun l l' => l.number < l'.number) := by
  induction texts generalizing number start with
  | nil => exact ⟨fun l hl => absurd hl List.not_mem_nil, List.Pairwise.nil⟩
  | cons text texts ih =>
    obtain ⟨hle, hpairwise⟩ := ih (number + 1) (start + byteLength text)
    rw [enumerate]
    refine ⟨?_, List.pairwise_cons.mpr ⟨?_, hpairwise⟩⟩
    · intro l hl
      rcases List.mem_cons.mp hl with rfl | hl
      · exact Nat.le_refl _
      · exact Nat.le_trans (Nat.le_succ number) (hle l hl)
    · intro l hl
      exact hle l hl

/-- Of the lines of a text the first begins with it, so that some line contains a given offset: the last of those that begin
at or before it. -/
theorem takeWhile_ofText (text : List Char) (offset : Nat) : ∃ front,
    (ofText text).takeWhile (fun l => l.start ≤ offset) = front ++ [containing (ofText text) offset] := by
  obtain ⟨first, more, hsplit, -⟩ := splitLines_eq_cons text
  have hne : (ofText text).takeWhile (fun l => l.start ≤ offset) ≠ [] := by
    rw [ofText, hsplit, enumerate, List.takeWhile_cons_of_pos (by simp)]
    exact List.cons_ne_nil _ _
  obtain ⟨front, last, hfront⟩ := (List.eq_nil_or_concat' _).resolve_left hne
  refine ⟨front, ?_⟩
  rw [containing, hfront, List.getLastD_concat]

/-- The line of an offset is one of the lines of the text, and begins at or before the offset. -/
theorem containing_mem (text : List Char) (offset : Nat) :
    containing (ofText text) offset ∈ ofText text ∧ (containing (ofText text) offset).start ≤ offset := by
  obtain ⟨front, hfront⟩ := takeWhile_ofText text offset
  have hmem : containing (ofText text) offset ∈ (ofText text).takeWhile (fun l => l.start ≤ offset) := by
    rw [hfront]
    exact List.mem_append_right front List.mem_cons_self
  refine ⟨List.takeWhile_subset _ hmem, ?_⟩
  simpa using List.mem_takeWhile_imp hmem

/-- A later offset does not stand in an earlier line. -/
theorem number_containing_le (text : List Char) {start stop : Nat} (h : start ≤ stop) :
    (containing (ofText text) start).number ≤ (containing (ofText text) stop).number := by
  obtain ⟨front, hfront⟩ := takeWhile_ofText text stop
  -- the lines that begin at or before the earlier offset are among those that begin at or before the later one
  have hmem : containing (ofText text) start ∈ front ++ [containing (ofText text) stop] := by
    obtain ⟨front', hfront'⟩ := takeWhile_ofText text start
    have hboth : (fun l : SourceLine => decide (l.start ≤ start ∧ l.start ≤ stop)) = fun l => decide (l.start ≤ start) := by
      funext l
      rw [decide_eq_decide]
      omega
    have htake := List.takeWhile_takeWhile (fun l : SourceLine => decide (l.start ≤ start))
      (fun l => decide (l.start ≤ stop)) (ofText text)
    simp only [decide_eq_true_eq] at htake
    rw [hboth, hfront, hfront'] at htake
    refine List.takeWhile_subset _ (?_ : _ ∈ List.takeWhile (fun l : SourceLine => decide (l.start ≤ start)) _)
    rw [htake]
    exact List.mem_append_right front' List.mem_cons_self
  have hpairwise := (enumerate_numbers 1 0 (splitLines text)).2.sublist (List.takeWhile_sublist (fun l => l.start ≤ stop))
  rw [← ofText, hfront] at hpairwise
  rcases List.mem_append.mp hmem with hmem | hmem
  · exact Nat.le_of_lt ((List.pairwise_append.mp hpairwise).2.2 _ hmem _ List.mem_cons_self)
  · rw [List.mem_singleton.mp hmem]

end SourceLine

/-- The lines that a report finds for a span in a text: those that the span begins and ends in are lines of the text, begin no
later than the span does and ends, and come in this order. -/
structure Report.WithinText (text : String) (span : Span) : Prop where
  first_mem : (boundaries (SourceLine.ofText text.toList) span).1 ∈ SourceLine.ofText text.toList
  last_mem : (boundaries (SourceLine.ofText text.toList) span).2 ∈ SourceLine.ofText text.toList
  first_le : (boundaries (SourceLine.ofText text.toList) span).1.start ≤ span.start
  last_le : (boundaries (SourceLine.ofText text.toList) span).2.start ≤ span.stop
  ordered : (boundaries (SourceLine.ofText text.toList) span).1.number ≤
    (boundaries (SourceLine.ofText text.toList) span).2.number

/-- A report finds the lines of its text wherever the span begins and ends. -/
theorem Report.withinText (text : String) {span : Span} (h : span.start ≤ span.stop) : WithinText text span := by
  obtain ⟨hfirst, hstart⟩ := SourceLine.containing_mem text.toList span.start
  obtain ⟨hlast, hstop⟩ := SourceLine.containing_mem text.toList span.stop
  exact ⟨hfirst, hlast, hstart, hstop, SourceLine.number_containing_le text.toList h⟩

/-! ## All reporters -/

end MiniLex
