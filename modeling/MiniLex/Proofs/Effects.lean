import Mathlib.Data.List.Forall2
import MiniLex.Command.Lex
import MiniLex.Proofs.Errors
import MiniLex.Proofs.Locus
import MiniLex.Proofs.Overwriting

/-!
# What a run of the command does

Either the input cannot be read, and then nothing else happens (`Unread`). Or it is read, everything that is wrong with it is
said, one diagnostic after the other, and then its listing is delivered (`Lexed`): it replaces the file that the output leads to
or goes through the channel for the result, or that fails (`Delivered`). A failed delivery changes nothing, unless it is the disk
that takes no more of an open file. Only what has been delivered can be denied (`Concluded`). That is so on every machine
(`command_effects`), and where the output is the input as well, since the input is read before anything is written.
-/

namespace MiniLex

/-! ## Reports -/

namespace Report

/-- The last of some rows ends with a text. -/
def EndWith (rows : List (List Ink)) (text : String) : Prop :=
  ∃ front last begin, rows = front ++ [last] ∧ Ink.written false last = begin ++ " " ++ text

theorem endWith_underlined (width : Nat) (l : SourceLine) (span : Span) (label : String) :
    EndWith (underlined width l span label) label := by
  let carets := l.carets labelStyle (span.start - l.start) (max (span.stop - l.start) (span.start - l.start + 1))
  refine ⟨[_, _], _, Ink.written false (gutter width "│" ++ .text " " :: carets), rfl, ?_⟩
  rw [Ink.written_append, Ink.written_cons, Ink.written_tinted, Ink.put_text, String.append_assoc]

theorem endWith_bracketed (width : Nat) (first : SourceLine) (between : List SourceLine) (last : SourceLine) (span : Span)
    (label : String) : EndWith (bracketed width first between last span label) label := by
  let marks := repeated (Cell.widthWhile (· < span.stop - last.start) last.cells) '─'
  have hmark : "^ " = "^" ++ " " := by decide
  rw [bracketed, hmark]
  refine ⟨_ ++ [_], _, Ink.written false (gutter width "│" ++ bracket "╰") ++ (marks ++ "^"),
    (List.append_assoc _ [_] [_]).symm, ?_⟩
  rw [Ink.written_append, Ink.written_tinted]
  simp only [marks, String.append_assoc]

/-- A report ends with the text for its span, and an empty line. -/
theorem labelled_ink (file : SourceFile) (a : Annotation) :
    ∃ front, Ink.written false (ink file a) = front ++ " " ++ a.label ++ "\n\n" := by
  have hrows : ∃ head body, rows file a = head ++ body ++ [[]] ∧ EndWith body a.label := by
    refine ⟨[_, _], _, rfl, ?_⟩
    split
    · exact endWith_underlined _ _ _ _
    · exact endWith_bracketed _ _ _ _ _ _
  obtain ⟨head, _, hrows, front, last, begin, rfl, hlast⟩ := hrows
  have hfeeds : "\n\n" = "\n" ++ "\n" := by decide
  refine ⟨Ink.written false ((head ++ front).flatMap (· ++ [.text "\n"])) ++ begin, ?_⟩
  rw [ink, hrows, hfeeds]
  simp [-String.reduceAppend, hlast, String.append_assoc]

/-- What a report on a file shows of a diagnostic: at its beginning the line of the diagnostic, and the place in the file; at its
end what is wrong. It is what a reporter with this file returns. -/
structure Shows (report : String) (file : SourceFile) (d : Diagnostic) : Prop where
  render_eq : report = (Reporter.new.add file).2.render .standard (Reporter.new.add file).1 d
  points : Points report d file.name (locus file.text d.span.start).1 (locus file.text d.span.start).2
  labelled : ∃ front, report = front ++ " " ++ d.error.message ++ "\n\n"

theorem shows_ink (file : SourceFile) (d : Diagnostic) :
    Shows (Ink.written false (ink file (d.annotation (Reporter.new.add file).1))) file d :=
  ⟨(Reporter.new.render_add file d).symm, points_ink file _ d, labelled_ink file _⟩

end Report

/-! ## What is said -/

/-- What is said of a diagnostic is its line, or a report on the source under the name of the input in the colours that the
terminal shows. -/
inductive Said (settings : Settings) (t : Terminal) (input source : String) (d : Diagnostic) : String → Prop where
  | line : settings.pretty = false → Said settings t input source d (d.render ++ "\n")
  | report (ink : List Ink) : settings.pretty = true → Report.Shows (Ink.written false ink) ⟨input, source⟩ d →
      Said settings t input source d (Ink.written (ColourChoice.auto.colours t) ink)

/-- What is presented is what has to be said. -/
theorem said_present (settings : Settings) (t : Terminal) (input source : String) (d : Diagnostic) :
    Said settings t input source d (settings.present t input source d) := by
  obtain ⟨pretty, denyErrors⟩ := settings
  cases pretty with
  | false => exact Said.line rfl
  | true =>
    have hpresent : Settings.present ⟨true, denyErrors⟩ t input source d = Ink.written (ColourChoice.auto.colours t)
        (Report.ink ⟨input, source⟩ (d.annotation (Reporter.new.add ⟨input, source⟩).1)) := by
      simp only [Settings.present, if_true, Reporter.report, Reporter.emit_add]
      rfl
    rw [hpresent]
    exact Said.report _ rfl (Report.shows_ink _ d)

/-- Where the diagnostics of an input go: to a printer of reports on its source under its name, or of lines. -/
def Settings.sink (s : Settings) (t : Terminal) (input source : String) : Sink Channel :=
  if s.pretty then (Reporter.new.add ⟨input, source⟩).2.sink .standard t (Reporter.new.add ⟨input, source⟩).1 else .lines

/-- A channel that works receives all the lines that are written to it until it is flushed. -/
theorem Sink.feed_lines (ds : List Diagnostic) (received pending : String) :
    lines.feed ⟨none, received, pending⟩ (ds.map Event.diagnostic ++ [.flush]) =
      ⟨none, received ++ (pending ++ String.join (ds.map (fun d => d.render ++ "\n"))), ""⟩ := by
  induction ds generalizing pending with
  | nil =>
    rw [List.map_nil, List.map_nil, String.join_nil, String.append_empty]
    rfl
  | cons d ds ih =>
    rw [List.map_cons, List.map_cons, String.join_cons, ← @String.append_assoc pending]
    exact ih (pending ++ (d.render ++ "\n"))

/-- A channel that works receives at once what a reporter prints, and a flush adds nothing. -/
theorem Reporter.feed_sink (r : Reporter) (e : Emitter) (t : Terminal) (id : Nat) (ds : List Diagnostic)
    (received pending : String) :
    (r.sink e t id).feed ⟨none, received, pending⟩ (ds.map Event.diagnostic ++ [.flush]) =
      ⟨none, received ++ String.join (ds.map (r.report e t id)), pending⟩ := by
  induction ds generalizing received with
  | nil =>
    rw [List.map_nil, List.map_nil, String.join_nil, String.append_empty]
    rfl
  | cons d ds ih =>
    rw [List.map_cons, List.map_cons, String.join_cons, ← @String.append_assoc received]
    exact ih (received ++ r.report e t id d)

/-- What is presented is what the sink prints when it is fed the events of the scan. -/
theorem Settings.received_sink (s : Settings) (t : Terminal) (input source : String) :
    ((s.sink t input source).feed (.fresh none) (tokenize source).events).received =
      String.join ((tokenize source).diagnostics.map (s.present t input source)) := by
  obtain ⟨pretty, denyErrors⟩ := s
  rw [Channel.fresh, Scan.events]
  cases pretty with
  | false =>
    have hsink : Settings.sink ⟨false, denyErrors⟩ t input source = .lines := rfl
    rw [hsink, Sink.feed_lines, String.empty_append, String.empty_append]
    rfl
  | true =>
    have hsink : Settings.sink ⟨true, denyErrors⟩ t input source =
        (Reporter.new.add ⟨input, source⟩).2.sink .standard t (Reporter.new.add ⟨input, source⟩).1 := rfl
    rw [hsink, Reporter.feed_sink, String.empty_append]
    rfl

/-- The listing of a source. -/
def Listing.ofText (source : String) : Listing := .ofTokens (tokenize source).tokens

/-- The listing of a text counts as many errors as its scan has diagnostics. -/
theorem Listing.errorCount_ofText (source : String) : (ofText source).errorCount = (tokenize source).diagnostics.length := by
  rw [(reports_tokenize source).length_eq, ← List.countP_eq_length_filter]
  rfl

/-! ## What happens -/

/-- The input cannot be read. The run fails with the cause, and that it began is all that can be seen of it. -/
structure Unread (m : Machine) (input : String) (cause : DiskError) (result : Except Failure Listing) (m' : Machine) :
    Prop where
  read_eq : m.disk.read input = .error cause
  inputNotFound_iff : result = .error (.inputNotFound input) ↔ cause = .notFound
  unreadable : cause ≠ .notFound → result = .error (.unreadable cause)
  disk_eq : m'.disk = m.disk
  stdout_eq : m'.stdout = m.stdout
  history_eq : m'.history = m.history ++ [.log (.lexing input), .read input]

/-- The text that is delivered for a listing. -/
def Listing.text (listing : Listing) : String := listing.render ++ "\n"

/-- A listing is delivered to an output, if there is one, or else printed, or that fails. -/
inductive Delivered (listing : Listing) (m m' : Machine) : Option String → Except Failure Unit → List Deed → Prop where
  /-- The file is replaced, or made. -/
  | written {path : String} {p : Place} : m.disk.target path = .ok p →
      m.disk.Overwritten m'.disk p listing.text.toUTF8 →
      (m.disk.unreadable.lookup p = none → m'.disk.read path = .ok listing.text) → m'.stdout = m.stdout →
      Delivered listing m m' (some path) (.ok ()) [.write path listing.text, .log (.wrote listing.entries.length path)]
  /-- No file is opened. -/
  | unopened {path : String} {cause : DiskError} : m.disk.target path = .error cause → m'.disk = m.disk →
      m'.stdout = m.stdout →
      Delivered listing m m' (some path) (.error (.unwritable path cause)) [.write path listing.text]
  /-- The file takes only the beginning of the text. -/
  | cut {path : String} {p : Place} {s : Shortage} : m.disk.target path = .ok p → m.disk.shortage = some s →
      s.room < listing.text.toUTF8.size → m.disk.Overwritten m'.disk p (listing.text.toUTF8.extract 0 s.room) →
      m'.stdout = m.stdout →
      Delivered listing m m' (some path) (.error (.unwritable path (.refused s.reason))) [.write path listing.text]
  | printed : m.stdout.failure = none → m'.disk = m.disk →
      m'.stdout = ⟨none, m.stdout.received ++ (m.stdout.pending ++ listing.text), ""⟩ →
      Delivered listing m m' none (.ok ()) [.print listing.text]
  | unprintable {reason : String} : m.stdout.failure = some reason → m'.disk = m.disk → m'.stdout = m.stdout →
      Delivered listing m m' none (.error (.unprintable reason)) [.print listing.text]

namespace Delivered

variable {listing : Listing} {m n m' : Machine} {output : Option String} {delivery : Except Failure Unit} {deeds : List Deed}

theorem congr (h : Delivered listing n m' output delivery deeds) (hd : n.disk = m.disk) (hs : n.stdout = m.stdout) :
    Delivered listing m m' output delivery deeds := by
  obtain ⟨disk, stdout, terminal, history⟩ := m
  obtain rfl : n.disk = disk := hd
  obtain rfl : n.stdout = stdout := hs
  cases h with
  | written ht hover hread hstdout => exact written ht hover hread hstdout
  | unopened ht hdisk hstdout => exact unopened ht hdisk hstdout
  | cut ht hs hroom hover hstdout => exact cut ht hs hroom hover hstdout
  | printed hf hdisk hstdout => exact printed hf hdisk hstdout
  | unprintable hf hdisk hstdout => exact unprintable hf hdisk hstdout

/-- A failure leaves the disk as it was if an open file takes all that is written to it. -/
theorem disk_eq_of_error {f : Failure} (h : Delivered listing m m' output (.error f) deeds)
    (hroom : m.disk.Takes listing.text.toUTF8.size) : m'.disk = m.disk := by
  cases h with
  | unopened _ hdisk _ => exact hdisk
  | cut _ hs hlt _ _ => exact absurd (hroom _ hs) (Nat.not_le_of_lt hlt)
  | unprintable _ hdisk _ => exact hdisk

end Delivered

/-- What a run ends with: with the failure to deliver a listing, with the denial of its errors, or with the listing. -/
inductive Concluded (denyErrors : Bool) (count : Nat) (listing : Listing) :
    Except Failure Unit → Except Failure Listing → Prop where
  | failed (f : Failure) : Concluded denyErrors count listing (.error f) (.error f)
  | denied : denyErrors = true → 0 < count → Concluded denyErrors count listing (.ok ()) (.error (.lexical count))
  | finished : ¬(denyErrors = true ∧ 0 < count) → Concluded denyErrors count listing (.ok ()) (.ok listing)

/-- The input is read. All its diagnostics are said, in order, by what the sink for them prints. Behind that its listing is
delivered, and the run ends accordingly. -/
structure Lexed (settings : Settings) (m : Machine) (input : String) (output : Option String) (source : String)
    (result : Except Failure Listing) (m' : Machine) : Prop where
  read_eq : m.disk.read input = .ok source
  passed : ∃ texts deeds delivery,
    List.Forall₂ (Said settings m.terminal input source) (tokenize source).diagnostics texts ∧
    String.join texts = ((settings.sink m.terminal input source).feed (.fresh none) (tokenize source).events).received ∧
    m'.history = m.history ++ .log (.lexing input) :: .read input :: (texts.map .say ++
      .log (.scanned (Listing.ofText source).entries.length (tokenize source).diagnostics.length) :: deeds) ∧
    Delivered (.ofText source) m m' output delivery deeds ∧
    Concluded settings.denyErrors (tokenize source).diagnostics.length (.ofText source) delivery result

namespace Lexed

variable {settings : Settings} {m m' : Machine} {input source : String} {output : Option String}
  {result : Except Failure Listing}

/-- A run that reads its input delivers the listing of what it has read, and ends accordingly. -/
theorem delivered (h : Lexed settings m input output source result m') : ∃ deeds delivery,
    Delivered (.ofText source) m m' output delivery deeds ∧
      Concluded settings.denyErrors (tokenize source).diagnostics.length (.ofText source) delivery result := by
  obtain ⟨_, deeds, delivery, -, -, -, hdelivered, hconcluded⟩ := h.passed
  exact ⟨deeds, delivery, hdelivered, hconcluded⟩

/-- Where a run fails to write its listing, the disk is as it was, if an open file takes all that is written to it. -/
theorem disk_eq_of_unwritable {path : String} {cause : DiskError}
    (h : Lexed settings m input output source (.error (.unwritable path cause)) m')
    (hroom : m.disk.Takes (Listing.ofText source).text.toUTF8.size) : m'.disk = m.disk := by
  obtain ⟨_, _, hdelivered, hconcluded⟩ := h.delivered
  cases hconcluded with
  | failed => exact hdelivered.disk_eq_of_error hroom

end Lexed

/-! ## On a machine -/

namespace Machine

variable {α β : Type}

theorem run_bind (x : StateM Machine α) (f : α → StateM Machine β) (m : Machine) :
    (x >>= f).run m = (f (x.run m).1).run (x.run m).2 := rfl

theorem run_pure (a : α) (m : Machine) : (pure a : StateM Machine α).run m = (a, m) := rfl

theorem run_read (path : String) (m : Machine) : (host.read path).run m = (m.disk.read path, m.done (.read path)) := rfl

theorem run_write (path text : String) (m : Machine) : (host.write path text).run m =
    ((m.disk.write path text).1, ⟨(m.disk.write path text).2, m.stdout, m.terminal, m.history ++ [.write path text]⟩) := rfl

theorem run_print (text : String) (m : Machine) : (host.print text).run m = m.print text := rfl

theorem run_log (n : Notice) (m : Machine) : (host.log n).run m = ((), m.done (.log n)) := rfl

theorem run_say (s : String) (m : Machine) : (host.say s).run m = ((), m.done (.say s)) := rfl

theorem run_terminal (m : Machine) : host.terminal.run m = (m.terminal, m) := rfl

/-- The machine with several things more done. -/
def after (m : Machine) (deeds : List Deed) : Machine := ⟨m.disk, m.stdout, m.terminal, m.history ++ deeds⟩

theorem after_after (m : Machine) (deeds more : List Deed) : (m.after deeds).after more = m.after (deeds ++ more) := by
  rw [after, after, after, List.append_assoc]

theorem run_forM_say (words : Diagnostic → String) (ds : List Diagnostic) (m : Machine) :
    (ds.forM (fun d => host.say (words d))).run m = ((), m.after (ds.map (fun d => .say (words d)))) := by
  induction ds generalizing m with
  | nil =>
    rw [List.map_nil, after, List.append_nil]
    rfl
  | cons d ds ih =>
    have hcons : (d :: ds).forM (fun d => host.say (words d)) =
        host.say (words d) >>= fun _ => ds.forM (fun d => host.say (words d)) := rfl
    rw [hcons, run_bind, run_say, ih]
    exact congrArg (Prod.mk ()) (m.after_after [_] _)

end Machine

namespace Command

open Machine

variable {m : Machine} {settings : Settings} {input source : String} {output : Option String}

/-- A run whose input cannot be read is over. -/
theorem run_of_error {cause : DiskError} (h : m.disk.read input = .error cause) :
    (run host settings input output).run m =
      (.error (.ofRead input cause), m.after [.log (.lexing input), .read input]) := by
  have hread : (m.done (.log (.lexing input))).disk.read input = .error cause := h
  simp only [run, run_bind, run_log, run_read, hread, run_pure]
  exact congrArg (Prod.mk _) (m.after_after [_] [_])

/-- All that is done up to where all that is wrong with a source has been said. -/
def telling (settings : Settings) (t : Terminal) (input source : String) : List Deed :=
  .log (.lexing input) :: .read input ::
    ((tokenize source).diagnostics.map (fun d => .say (settings.present t input source d)) ++
      [.log (.scanned (Listing.ofText source).entries.length (Listing.ofText source).errorCount)])

/-- What a run ends with once a listing has been delivered, or could not be. -/
def conclude (denyErrors : Bool) (listing : Listing) : Except Failure Unit → Except Failure Listing
  | .error f => .error f
  | .ok () => if denyErrors && listing.hasErrors then .error (.lexical listing.errorCount) else .ok listing

/-- A run whose input can be read delivers the listing of it, and ends accordingly. -/
theorem run_of_ok (h : m.disk.read input = .ok source) :
    let delivery := (deliver host output (.ofText source)).run (m.after (telling settings m.terminal input source))
    (run host settings input output).run m = (conclude settings.denyErrors (.ofText source) delivery.1, delivery.2) := by
  intro delivery
  have hread : (m.done (.log (.lexing input))).disk.read input = .ok source := h
  have hlisting : Listing.ofTokens (tokenize source).tokens = .ofText source := rfl
  have htold : (((((m.done (.log (.lexing input))).done (.read input)).after
      ((tokenize source).diagnostics.map (fun d => .say (settings.present m.terminal input source d)))).done
        (.log (.scanned (Listing.ofText source).entries.length (Listing.ofText source).errorCount)))) =
      m.after (telling settings m.terminal input source) := by
    simp only [done, after, telling, List.append_assoc, List.cons_append, List.nil_append]
  have hterminal : ((m.done (.log (.lexing input))).done (.read input)).terminal = m.terminal := rfl
  have hd : (deliver host output (.ofText source)).run (m.after (telling settings m.terminal input source)) =
      (delivery.1, delivery.2) := rfl
  generalize delivery.1 = result at *
  simp only [run, run_bind, run_log, run_read, run_terminal, run_forM_say, hread, hterminal, hlisting, htold, hd]
  cases result with
  | error f => rfl
  | ok =>
    simp only [conclude]
    split <;> simp only [run_pure]

/-- Delivering a listing does what it should. -/
theorem delivered_deliver (m : Machine) (output : Option String) (listing : Listing) :
    let delivery := (deliver host output listing).run m
    ∃ deeds, Delivered listing m delivery.2 output delivery.1 deeds ∧ delivery.2.history = m.history ++ deeds := by
  have htext : listing.render ++ "\n" = listing.text := rfl
  simp only [deliver, htext]
  cases output with
  | some path =>
    simp only [run_bind, run_write]
    have hfiled := m.disk.write_cases path listing.text
    generalize m.disk.write path listing.text = written at *
    obtain ⟨result, d'⟩ := written
    cases hfiled with
    | whole ht _ hover =>
      simp only [run_bind, run_log, run_pure]
      exact ⟨_, Delivered.written ht hover (hover.read ht) rfl, List.append_assoc _ _ _⟩
    | cut ht hs hroom hover =>
      simp only [run_pure]
      exact ⟨_, Delivered.cut ht hs hroom hover rfl, rfl⟩
    | unopened ht =>
      simp only [run_pure]
      exact ⟨_, Delivered.unopened ht rfl rfl, rfl⟩
  | none =>
    simp only [run_bind, run_print, Machine.print]
    cases hf : m.stdout.failure with
    | none =>
      simp only [run_pure]
      refine ⟨_, Delivered.printed hf rfl ?_, rfl⟩
      simp only [Channel.write, Channel.flush, hf]
    | some reason =>
      simp only [run_pure]
      exact ⟨_, Delivered.unprintable hf rfl rfl, rfl⟩

/-- The run ends as it should, given what became of the listing. -/
theorem concluded_conclude (denyErrors : Bool) (listing : Listing) (delivery : Except Failure Unit) :
    Concluded denyErrors listing.errorCount listing delivery (conclude denyErrors listing delivery) := by
  cases delivery with
  | error f => exact Concluded.failed f
  | ok =>
    rw [conclude]
    split
    · next h =>
      rw [Bool.and_eq_true, Listing.hasErrors, decide_eq_true_eq] at h
      exact Concluded.denied h.1 h.2
    · next h =>
      rw [Bool.and_eq_true, Listing.hasErrors, decide_eq_true_eq] at h
      exact Concluded.finished h

/-- A run whose input cannot be read does nothing. -/
theorem unread_run {cause : DiskError} (h : m.disk.read input = .error cause) :
    let ran := (run host settings input output).run m
    Unread m input cause ran.1 ran.2 := by
  intro ran
  have hran : ran = (.error (.ofRead input cause), m.after [.log (.lexing input), .read input]) := run_of_error h
  rw [hran]
  refine ⟨h, ?_, fun hc => congrArg Except.error (Failure.ofRead.eq_2 input cause hc), rfl, rfl, rfl⟩
  cases cause <;> simp [Failure.ofRead]

/-- A run whose input is read scans it and delivers its listing. -/
theorem lexed_run (h : m.disk.read input = .ok source) :
    let ran := (run host settings input output).run m
    Lexed settings m input output source ran.1 ran.2 := by
  intro ran
  have hran : ran = _ := run_of_ok h
  obtain ⟨deeds, hdelivered, hhistory⟩ :=
    delivered_deliver (m.after (telling settings m.terminal input source)) output (.ofText source)
  generalize (deliver host output _).run (m.after (telling settings m.terminal input source)) = delivery at *
  rw [hran]
  refine ⟨h, (tokenize source).diagnostics.map (settings.present m.terminal input source), deeds, delivery.1, ?_,
    (settings.received_sink m.terminal input source).symm, ?_, hdelivered.congr rfl rfl, ?_⟩
  · rw [List.forall₂_map_right_iff, List.forall₂_same]
    intro d _
    exact said_present settings m.terminal input source d
  · rw [hhistory, after, telling, Listing.errorCount_ofText, List.map_map]
    simp only [List.append_assoc, List.cons_append, List.nil_append]
    rfl
  · rw [← Listing.errorCount_ofText]
    exact concluded_conclude _ _ _

end Command

end MiniLex
