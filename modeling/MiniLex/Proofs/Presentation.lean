import MiniLex.Command.Options
import MiniLex.Proofs.Effects

/-!
# How a run is presented

How diagnostics are shown, in which colours, and what the log shows goes to the error channel alone. Two programs agree if
machines that differ at most in their terminals and in what has been done go through both in the same way (`Command.Agree`);
steps that agree make programs that agree, and runs of the command agree however they are presented (`Command.agree_run`). To
deny errors is to look at the result of a run that does not (`Command.run_denyErrors`). So the exit status, the printed text and
the files are those of a plain run (`outcome_unpresented`), and a file that is written has in it what would have been printed.
-/

namespace MiniLex

/-! ## Programs that agree -/

namespace Machine

/-- Two machines have the same files and the same output channel. -/
structure Alike (m n : Machine) : Prop where
  disk_eq : m.disk = n.disk
  stdout_eq : m.stdout = n.stdout

theorem Alike.done {m n : Machine} (h : m.Alike n) (u v : Deed) : (m.done u).Alike (n.done v) := ⟨h.disk_eq, h.stdout_eq⟩

end Machine

namespace Command

open Machine

/-- Two programs agree: on machines that are alike they give the same, and leave machines that are alike. -/
def Agree {α : Type} (x y : StateM Machine α) : Prop :=
  ∀ m n : Machine, m.Alike n → (x.run m).1 = (y.run n).1 ∧ (x.run m).2.Alike (y.run n).2

namespace Agree

variable {α β : Type} {x y : StateM Machine α} {f g : α → StateM Machine β}

theorem pure (a : α) : Agree (Pure.pure a) (Pure.pure a) := fun _ _ h => ⟨rfl, h⟩

theorem bind (h : Agree x y) (hf : ∀ a, Agree (f a) (g a)) : Agree (x >>= f) (y >>= g) := by
  intro m n hmn
  obtain ⟨hresult, halike⟩ := h m n hmn
  rw [run_bind, run_bind, hresult]
  exact hf _ _ _ halike

theorem say (s t : String) : Agree (host.say s) (host.say t) := fun _ _ h => ⟨rfl, h.done _ _⟩

theorem log (n k : Notice) : Agree (host.log n) (host.log k) := fun _ _ h => ⟨rfl, h.done _ _⟩

theorem forM_say (words words' : Diagnostic → String) (ds : List Diagnostic) :
    Agree (ds.forM (fun d => host.say (words d))) (ds.forM (fun d => host.say (words' d))) := by
  intro m n h
  rw [run_forM_say, run_forM_say]
  exact ⟨rfl, h.disk_eq, h.stdout_eq⟩

theorem terminal {f g : Terminal → StateM Machine β} (h : ∀ t t', Agree (f t) (g t')) :
    Agree (host.terminal >>= f) (host.terminal >>= g) := by
  intro m n hmn
  rw [run_bind, run_bind, run_terminal, run_terminal]
  exact h m.terminal n.terminal m n hmn

theorem read (path : String) : Agree (host.read path) (host.read path) := by
  intro m n h
  rw [run_read, run_read, h.disk_eq]
  exact ⟨rfl, h.done _ _⟩

theorem write (path text : String) : Agree (host.write path text) (host.write path text) := by
  intro m n h
  rw [run_write, run_write, h.disk_eq]
  exact ⟨rfl, rfl, h.stdout_eq⟩

theorem print (text : String) : Agree (host.print text) (host.print text) := by
  intro m n h
  rw [run_print, run_print, Machine.print, Machine.print, h.stdout_eq]
  cases n.stdout.failure with
  | none => exact ⟨rfl, h.disk_eq, rfl⟩
  | some reason => exact ⟨rfl, h.disk_eq, rfl⟩

end Agree

/-- A listing is delivered in the same way. -/
theorem agree_deliver (output : Option String) (listing : Listing) :
    Agree (deliver host output listing) (deliver host output listing) := by
  unfold deliver
  cases output with
  | some path =>
    refine (Agree.write path _).bind (fun result => ?_)
    cases result with
    | error cause => exact Agree.pure _
    | ok => exact (Agree.log _ _).bind (fun _ => Agree.pure _)
  | none =>
    refine (Agree.print _).bind (fun result => ?_)
    cases result <;> exact Agree.pure _

/-- Runs agree however diagnostics are shown. -/
theorem agree_run (pretty pretty' denyErrors : Bool) (input : String) (output : Option String) :
    Agree (run host ⟨pretty, denyErrors⟩ input output) (run host ⟨pretty', denyErrors⟩ input output) := by
  refine (Agree.log _ _).bind (fun _ => (Agree.read input).bind (fun content => ?_))
  cases content with
  | error cause => exact Agree.pure _
  | ok source =>
    refine Agree.terminal (fun t t' => (Agree.forM_say _ _ _).bind (fun _ => (Agree.log _ _).bind (fun _ => ?_)))
    refine (agree_deliver output _).bind (fun delivery => ?_)
    cases delivery with
    | error failure => exact Agree.pure _
    | ok =>
      dsimp only
      split <;> exact Agree.pure _

/-! ## Denying errors -/

/-- Denies a listing that has errors. -/
def deny (listing : Listing) : Except Failure Listing :=
  if listing.hasErrors then .error (.lexical listing.errorCount) else .ok listing

/-- A run that denies errors is, wherever it takes place, one that does not, with its result denied at the end. -/
theorem run_denyErrors {m : Type → Type} [Monad m] [LawfulMonad m] (host : Host m) (pretty : Bool) (input : String)
    (output : Option String) :
    run host ⟨pretty, true⟩ input output =
      (fun result => result.bind deny) <$> run host ⟨pretty, false⟩ input output := by
  unfold run
  simp only [map_bind]
  refine bind_congr (fun _ => bind_congr (fun content => ?_))
  cases content with
  | error cause =>
    simp only [map_pure]
    rfl
  | ok source =>
    simp only [map_bind]
    refine bind_congr (fun _ => bind_congr (fun _ => bind_congr (fun _ => bind_congr (fun delivery => ?_))))
    cases delivery with
    | error failure =>
      simp only [map_pure]
      rfl
    | ok =>
      simp only [Bool.true_and, Bool.false_and, Bool.false_eq_true, if_false, map_pure, Except.bind, deny]
      split <;> rfl

/-! ## Outcomes -/

/-- The exit status that a result is told by. -/
def exitStatus : Except Failure Listing → Nat
  | .ok _ => 0
  | .error _ => 1

theorem exitStatus_ne_zero (result : Except Failure Listing) : exitStatus result ≠ 0 ↔ exitStatus result = 1 := by
  cases result <;> simp [exitStatus]

/-- What is said in front of a run and behind it makes no difference to what becomes of the machine. -/
theorem execute_alike (errors : List FilterError) (options : Options) (m : Machine) :
    let ran := (run host ⟨options.pretty, options.denyErrors⟩ options.input options.output).run m
    let ended := (execute host errors options).run m
    ended.1 = exitStatus ran.1 ∧ ended.2.Alike ran.2 := by
  intro ran
  -- the run begins where the errors of the filter have been said, and agrees with the one that begins on the machine itself
  have hran := agree_run options.pretty options.pretty options.denyErrors options.input options.output
    (m.done (.say (String.join (errors.map FilterError.message)))) m ⟨rfl, rfl⟩
  obtain ⟨hresult, halike⟩ := hran
  unfold execute
  simp only [run_bind, run_say]
  generalize (run host ⟨options.pretty, options.denyErrors⟩ options.input options.output).run
    (m.done (.say (String.join (errors.map FilterError.message)))) = ended at *
  obtain ⟨result, n⟩ := ended
  obtain rfl : result = ran.1 := hresult
  cases ran.1 with
  | error failure => exact ⟨rfl, halike.disk_eq, halike.stdout_eq⟩
  | ok listing => exact ⟨rfl, halike.disk_eq, halike.stdout_eq⟩

/-- What a command line leaves behind, apart from what has been said: its exit status, what has been printed, and the files. -/
structure Outcome where
  status : Nat
  stdout : Channel
  disk : Disk

/-- The outcome of a command line on a disk, with an output channel that fails if told so, and with a filter for the log in the
environment if there is one beside what it says of the terminal. -/
def outcome (disk : Disk) (failure environment : Option String) (terminal : Terminal) (options : Options) : Outcome :=
  let setup := LogSetup.choose environment options.verbose
  let ended := (execute host setup.errors options).run ⟨disk, .fresh failure, terminal, []⟩
  ⟨ended.1, ended.2.stdout, ended.2.disk⟩

variable {disk : Disk} {failure environment : Option String} {terminal : Terminal} {input : String} {output : Option String}
  {pretty denyErrors verbose : Bool}

/-- The outcome of a command line is that of a run of which neither the log nor the diagnostics are looked at. -/
theorem outcome_eq :
    let ran := (run host ⟨false, denyErrors⟩ input output).run (.fresh disk failure)
    outcome disk failure environment terminal ⟨input, output, pretty, denyErrors, verbose⟩ =
      ⟨exitStatus ran.1, ran.2.stdout, ran.2.disk⟩ := by
  intro ran
  obtain ⟨hstatus, halike⟩ := execute_alike (LogSetup.choose environment verbose).errors
    ⟨input, output, pretty, denyErrors, verbose⟩ ⟨disk, .fresh failure, terminal, []⟩
  obtain ⟨hresult, hplain⟩ := agree_run pretty false denyErrors input output ⟨disk, .fresh failure, terminal, []⟩
    (.fresh disk failure) ⟨rfl, rfl⟩
  rw [hresult] at hstatus
  simp only [outcome, hstatus, halike.stdout_eq, hplain.stdout_eq, halike.disk_eq, hplain.disk_eq]
  rfl

/-- An input has lexical errors if it can be read and there is a diagnostic. -/
def HasErrors (disk : Disk) (input : String) : Prop :=
  ∃ source, disk.read input = .ok source ∧ (tokenize source).diagnostics ≠ []

/-- Denying a listing that has been made of an input fails exactly if the input has errors. -/
theorem exitStatus_deny {m : Machine} {listing : Listing}
    (h : ((run host ⟨false, false⟩ input output).run m).1 = .ok listing) :
    exitStatus (deny listing) = 1 ↔ HasErrors m.disk input := by
  cases hread : m.disk.read input with
  | error cause =>
    have hran : (run host ⟨false, false⟩ input output).run m = _ := run_of_error hread
    simp [hran] at h
  | ok source =>
    obtain ⟨_, _, -, hconcluded⟩ := (@lexed_run m ⟨false, false⟩ input source output hread).delivered
    rw [h] at hconcluded
    have hlisting : listing = Listing.ofText source := by
      cases hconcluded
      rfl
    have herrors : HasErrors m.disk input ↔ 0 < listing.errorCount := by
      rw [hlisting, Listing.errorCount_ofText, List.length_pos_iff]
      constructor
      · rintro ⟨source', hsource, hd⟩
        obtain rfl : source = source' := by simpa [hread] using hsource
        exact hd
      · intro hd
        exact ⟨source, hread, hd⟩
    rw [herrors, deny, Listing.hasErrors]
    split
    · next hc => exact iff_of_true rfl (by simpa using hc)
    · next hc => exact iff_of_false (by simp [exitStatus]) (by simpa using hc)

/-- To deny errors changes neither what is printed nor the files, and the exit status at most from success to failure. -/
theorem outcome_denied :
    let plain := outcome disk failure environment terminal ⟨input, output, pretty, false, verbose⟩
    let denied := outcome disk failure environment terminal ⟨input, output, pretty, true, verbose⟩
    denied.stdout = plain.stdout ∧ denied.disk = plain.disk ∧
      (denied.status ≠ plain.status → plain.status = 0 ∧ denied.status = 1) ∧
      (denied.status ≠ plain.status ↔ plain.status = 0 ∧ HasErrors disk input) := by
  intro plain denied
  have hplain : plain = _ := outcome_eq
  have hdenied : denied = _ := outcome_eq
  have hdeny := fun listing => @exitStatus_deny input output (.fresh disk failure) listing
  rw [run_denyErrors] at hdenied
  generalize hran : (run host ⟨false, false⟩ input output).run (.fresh disk failure) = ran at *
  have hmapped : ((fun result => result.bind deny) <$> run host ⟨false, false⟩ input output).run (.fresh disk failure) =
      (ran.1.bind deny, ran.2) := by
    rw [← hran]
    rfl
  rw [hplain, hdenied, hmapped]
  refine ⟨rfl, rfl, ?_⟩
  cases hresult : ran.1 with
  | error failure => exact ⟨fun h => absurd rfl h, ⟨fun h => absurd rfl h, fun h => absurd h.1 Nat.one_ne_zero⟩⟩
  | ok listing =>
    have hdeny : exitStatus (deny listing) = 1 ↔ HasErrors disk input := hdeny listing hresult
    have hchange : exitStatus (deny listing) ≠ 0 ↔ exitStatus (deny listing) = 1 := exitStatus_ne_zero _
    refine ⟨fun h => ⟨rfl, hchange.mp h⟩, fun h => ⟨rfl, hdeny.mp (hchange.mp h)⟩, fun h => ?_⟩
    exact hchange.mpr (hdeny.mpr h.2)

/-- What is printed of an input is its listing. -/
theorem received_outcome {source : String} (hread : disk.read input = .ok source) :
    (outcome disk none environment terminal ⟨input, none, pretty, denyErrors, verbose⟩).stdout.received =
      (Listing.ofText source).text := by
  obtain ⟨_, _, hdelivered, -⟩ := (@lexed_run (.fresh disk none) ⟨false, denyErrors⟩ input source none hread).delivered
  rw [outcome_eq]
  cases hdelivered with
  | printed _ _ hstdout =>
    simp only [hstdout]
    rw [Machine.fresh, Channel.fresh, String.empty_append, String.empty_append]
  | unprintable hf _ _ => cases hf

/-- What is written of an input to a file is its listing, if the write succeeds. -/
theorem written_outcome {path source : String} (hread : disk.read input = .ok source)
    (hw : (disk.write path (Listing.ofText source).text).1 = .ok ()) :
    ∃ p, disk.target path = .ok p ∧
      disk.Overwritten (outcome disk failure environment terminal ⟨input, some path, pretty, denyErrors, verbose⟩).disk p
        (Listing.ofText source).text.toUTF8 := by
  obtain ⟨_, _, hdelivered, -⟩ :=
    (@lexed_run (.fresh disk failure) ⟨false, denyErrors⟩ input source (some path) hread).delivered
  rw [outcome_eq]
  have hfiled := disk.write_cases path (Listing.ofText source).text
  rw [hw] at hfiled
  cases hfiled with
  | whole ht hroom _ =>
    cases hdelivered with
    | written ht' hover _ _ => exact ⟨_, ht', hover⟩
    | unopened ht' _ _ => cases ht.symm.trans ht'
    | cut _ hs hlt _ _ => exact absurd (hroom _ hs) (Nat.not_le_of_lt hlt)

end Command

/-- However diagnostics are shown, on whatever terminal, and whatever the log shows, a command line has the same exit status,
prints the same and leaves the same files. If it denies errors as well, it still prints the same and leaves the same files, and
the exit status is another one exactly if it would have been that of success and the input has errors. And where an output is
written, the file there has the bytes in it that are printed without an output. -/
theorem outcome_unpresented (disk : Disk) (failure environment : Option String) (terminal : Terminal) (input : String)
    (output : Option String) (pretty denyErrors verbose : Bool) :
    (∀ environment' terminal' pretty' verbose',
      Command.outcome disk failure environment' terminal' ⟨input, output, pretty', denyErrors, verbose'⟩ =
        Command.outcome disk failure environment terminal ⟨input, output, pretty, denyErrors, verbose⟩) ∧
    (let plain := Command.outcome disk failure environment terminal ⟨input, output, pretty, false, verbose⟩
     let denied := Command.outcome disk failure environment terminal ⟨input, output, pretty, true, verbose⟩
     denied.stdout = plain.stdout ∧ denied.disk = plain.disk ∧
       (denied.status ≠ plain.status → plain.status = 0 ∧ denied.status = 1) ∧
       (denied.status ≠ plain.status ↔ plain.status = 0 ∧ Command.HasErrors disk input)) ∧
    ∀ source path, disk.read input = .ok source →
      let printed := Command.outcome disk none environment terminal ⟨input, none, pretty, denyErrors, verbose⟩
      let filed := Command.outcome disk failure environment terminal ⟨input, some path, pretty, denyErrors, verbose⟩
      (disk.write path printed.stdout.received).1 = .ok () →
        ∃ p, disk.target path = .ok p ∧ filed.disk.entry? p = some (.file printed.stdout.received.toUTF8) ∧
          (disk.unreadable.lookup p = none → filed.disk.read path = .ok printed.stdout.received) := by
  refine ⟨fun environment' terminal' pretty' verbose' => ?_, Command.outcome_denied, fun source path hread => ?_⟩
  · rw [Command.outcome_eq, Command.outcome_eq]
  · intro printed filed hw
    have hprinted : printed.stdout.received = _ := Command.received_outcome hread
    rw [hprinted] at hw ⊢
    obtain ⟨p, ht, hover⟩ :=
      @Command.written_outcome disk failure environment terminal input pretty denyErrors verbose path source hread hw
    exact ⟨p, ht, hover.written, hover.read ht⟩

/-- A source with an error, with and without its diagnostics as coloured reports and everything in the log, and with its listing
in a file of its own. -/
theorem outcome_unpresented_error :
    let disk := Disk.empty.create ⟨false, 0, ["a"]⟩ (.file "&".toUTF8)
    let plain := Command.outcome disk none none .plain ⟨"a", none, false, false, false⟩
    let filed := Command.outcome disk none none .plain ⟨"a", some "b", false, false, false⟩
    Command.outcome disk none (some "trace") ⟨some "xterm", false⟩ ⟨"a", none, true, false, true⟩ = plain ∧
      (Command.outcome disk none none .plain ⟨"a", none, false, true, false⟩).status ≠ plain.status ∧
      plain.stdout.received = "1:1 ERROR \"&\"\n1:2 EOF \"\"\n" ∧ filed.disk.read "b" = .ok plain.stdout.received := by
  intro disk plain filed
  have hread : disk.read "a" = .ok "&" := by decide +kernel
  have hstatus : plain.status = 0 := by decide +kernel
  have hprinted : plain.stdout.received = "1:1 ERROR \"&\"\n1:2 EOF \"\"\n" := by decide +kernel
  have hwrite : (disk.write "b" plain.stdout.received).1 = .ok () := by
    rw [hprinted]
    decide +kernel
  obtain ⟨hpresented, ⟨-, -, -, hdenied⟩, hfiled⟩ := outcome_unpresented disk none none .plain "a" none false false false
  have herrors : Command.HasErrors disk "a" := ⟨"&", hread, by decide +kernel⟩
  obtain ⟨p, -, -, hfound⟩ := hfiled "&" "b" hread hwrite
  exact ⟨hpresented (some "trace") ⟨some "xterm", false⟩ true true, hdenied.mpr ⟨hstatus, herrors⟩, hprinted, hfound rfl⟩

end MiniLex
