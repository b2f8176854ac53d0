import MiniLex.Proofs.Errors
import MiniLex.Scanner.Session

/-!
# Sessions

However a caller mixes its calls, they are one run over the text: the tokens that are returned are those of the source, in
order and with the end of the text as often as it is asked for, and every call sends the diagnostics of its own tokens
(`session_one_run`). One call is a step along that run (`Scanner.Yields`, `Scanner.yields_call`), so a session is
(`Scanner.yields_session`). A sink that is handed each diagnostic while the tokens are taken singly ends up as if it were fed
the events of the session (`Scanner.serve_eq`).
-/

namespace MiniLex

/-! ## What is exchanged -/

/-- The tokens of a reply. -/
def Reply.given : Reply → List Token
  | .token t => [t]
  | .tokens ts => ts
  | .answer _ | .text _ => []

/-- The tokens that a call returns. -/
def Exchange.tokens (e : Exchange) : List Token := e.reply.given

/-- The diagnostic of an event, unless it is the word of the end. -/
def Event.diagnostic? : Event → Option Diagnostic
  | .diagnostic d => some d
  | .flush => none

/-- The diagnostics that are sent while a call runs. -/
def Exchange.diagnostics (e : Exchange) : List Diagnostic := e.events.filterMap Event.diagnostic?

/-- Whether a call reads on; the others only look. -/
def Call.reads : Call → Bool
  | .next | .scan => true
  | .isAtEnd | .source => false

/-- An exchange answers a call on a source: with one token, with tokens up to the end of the text, with yes or no, or with the
source as it was given. Only tokens come with diagnostics, and the word of the end is sent by a scan to the end alone, once
and behind everything else. -/
inductive Answers (source : String) : Call → Exchange → Prop where
  | next (t : Token) (ds : List Diagnostic) : Answers source .next ⟨.token t, ds.map Event.diagnostic⟩
  | scan {body : List Token} {last : Token} (ds : List Diagnostic) : (∀ t ∈ body, t.isEof = false) → last.isEof = true →
      Answers source .scan ⟨.tokens (body ++ [last]), ds.map Event.diagnostic ++ [.flush]⟩
  | isAtEnd (b : Bool) : Answers source .isAtEnd ⟨.answer b, []⟩
  | source : Answers source .source ⟨.text source, []⟩

theorem filterMap_diagnostic (ds : List Diagnostic) : (ds.map Event.diagnostic).filterMap Event.diagnostic? = ds := by
  rw [List.filterMap_map]
  exact List.filterMap_some

/-- The diagnostics of a scan are sent as they are. -/
theorem filterMap_events (s : Scan) : s.events.filterMap Event.diagnostic? = s.diagnostics := by
  rw [Scan.events, List.filterMap_append, filterMap_diagnostic]
  exact List.append_nil _

namespace Scanner

/-! ## One token and all tokens -/

/-- Where nothing but a gap is left, the next token is the end of the text. -/
theorem next_stop (s : Scanner) (h : s.skip.rest = []) : s.next = ⟨.eof s.skip.position, none, s.skip⟩ := by
  rw [next, read?_of_nil h, Option.getD_none, atEnd]

/-- Where a lexeme is read behind the gap, it is the next token. -/
theorem next_step (s : Scanner) (l : Lexeme) (rest : List Char) (h : Lexeme.read? s.skip.rest = some (l, rest)) :
    s.next = s.skip.stepOver l rest := by
  rw [next, read?_of_lexeme h, Option.getD_some]

/-- The next token is the end of the text, and a scan gives it alone; or it is not, and a scan gives it in front of what it
gives from there. -/
theorem next_cases (s : Scanner) :
    (s.next = ⟨.eof s.skip.position, none, s.skip⟩ ∧ s.skip.rest = [] ∧ s.scan = ⟨[.eof s.skip.position], [], s.skip⟩) ∨
    (s.next.token.isEof = false ∧ s.next.scanner.rest.length < s.rest.length ∧ s.scan = .cons s.next s.next.scanner.scan) := by
  cases hr : Lexeme.read? s.skip.rest with
  | none =>
    have he := (Lexeme.read?_eq_none_iff _).mp hr
    exact Or.inl ⟨s.next_stop he, he, s.scan_stop he⟩
  | some found =>
    obtain ⟨l, rest⟩ := found
    have hlt := Lexeme.length_lt_of_read? _ rest l hr
    have hle := s.length_skip_le
    rw [s.next_step l rest hr, s.scan_step l rest hr]
    exact Or.inr ⟨Lexeme.isEof_of_read? _ rest l hr, Nat.lt_of_lt_of_le hlt hle, rfl⟩

theorem source_scan (s : Scanner) : s.scan.scanner.source = s.source := by
  induction s using scan_induction with
  | stop s _ => rfl
  | step s l rest _ ih => exact ih

theorem rest_scan (s : Scanner) : s.scan.scanner.rest = [] := by
  induction s using scan_induction with
  | stop s h => exact h
  | step s l rest _ ih => exact ih

/-- The end of the text comes last in a scan, and stands where the scanner does then. -/
theorem tokens_scan (s : Scanner) :
    ∃ body, s.scan.tokens = body ++ [.eof s.scan.scanner.position] ∧ ∀ t ∈ body, t.isEof = false := by
  induction s using scan_induction with
  | stop s _ => exact ⟨[], rfl, by simp⟩
  | step s l rest h ih =>
    obtain ⟨body, ht, hb⟩ := ih
    refine ⟨(s.skip.stepOver l rest).token :: body, congrArg _ ht, fun t hm => ?_⟩
    rcases List.mem_cons.mp hm with rfl | hm
    · exact Lexeme.isEof_of_read? _ rest l h
    · exact hb t hm

/-- A scan reports as many diagnostics as it gives error tokens. -/
theorem length_diagnostics_scan (s : Scanner) : s.scan.diagnostics.length = (s.scan.tokens.filter Token.isError).length := by
  induction s using scan_induction with
  | stop s _ => rfl
  | step s l rest _ ih =>
    cases he : l.kind.error? with
    | none =>
      rw [diagnostics_of_none he, Scan.cons, List.filter_cons_of_neg (isError_of_none he), ih]
    | some e =>
      rw [diagnostics_of_some he, Scan.cons, List.filter_cons_of_pos (isError_of_some he), List.length_cons,
        List.length_cons, ih]

/-! ## At the end -/

theorem skip_of_nil {s : Scanner} (h : s.rest = []) : s.skip = s := by
  obtain ⟨source, rest, position⟩ := s
  obtain rfl : rest = [] := h
  rw [skip, Trivia.split_nil]
  rfl

theorem scan_of_nil {s : Scanner} (h : s.rest = []) : s.scan = ⟨[.eof s.position], [], s⟩ := by
  have hs := skip_of_nil h
  rw [scan_stop s (by rw [hs]; exact h), hs]

/-- A scanner with nothing left is not taken on by any call, which returns nothing but the end of the text and reports
nothing. -/
theorem call_of_nil {s : Scanner} (h : s.rest = []) (c : Call) :
    (s.call c).2 = s ∧ (∀ t ∈ (s.call c).1.tokens, t.isEof = true) ∧ (s.call c).1.diagnostics = [] := by
  have hs := skip_of_nil h
  have hn := s.next_stop (by rw [hs]; exact h)
  rw [hs] at hn
  cases c with
  | next =>
    refine ⟨by rw [call, hn], fun t ht => ?_, by rw [call, hn]; rfl⟩
    rw [call, hn] at ht
    obtain rfl := List.mem_singleton.mp ht
    rfl
  | scan =>
    refine ⟨by rw [call, scan_of_nil h], fun t ht => ?_, by rw [call, scan_of_nil h]; rfl⟩
    rw [call, scan_of_nil h] at ht
    obtain rfl := List.mem_singleton.mp ht
    rfl
  | isAtEnd => exact ⟨rfl, by simp [call, Exchange.tokens, Reply.given], rfl⟩
  | source => exact ⟨rfl, by simp [call, Exchange.tokens, Reply.given], rfl⟩

/-- A scanner with nothing left is not taken on by any number of calls. -/
theorem session_of_nil {s : Scanner} (h : s.rest = []) (calls : List Call) :
    ∀ e ∈ s.session calls, (∀ t ∈ e.tokens, t.isEof = true) ∧ e.diagnostics = [] := by
  induction calls with
  | nil => simp [session]
  | cons c calls ih =>
    obtain ⟨hs, htokens, hdiagnostics⟩ := call_of_nil h c
    intro e he
    rw [session, hs] at he
    rcases List.mem_cons.mp he with rfl | he
    · exact ⟨htokens, hdiagnostics⟩
    · exact ih e he

/-- A call that returns the end of the text leaves nothing to read. -/
theorem rest_of_isEof (s : Scanner) (c : Call) {t : Token} (ht : t ∈ (s.call c).1.tokens) (he : t.isEof = true) :
    (s.call c).2.rest = [] := by
  cases c with
  | next =>
    obtain rfl := List.mem_singleton.mp ht
    rcases s.next_cases with ⟨hn, hr, _⟩ | ⟨hn, _⟩
    · rw [call, hn]
      exact hr
    · rw [hn] at he
      cases he
  | scan => exact s.rest_scan
  | isAtEnd => simp [call, Exchange.tokens, Reply.given] at ht
  | source => simp [call, Exchange.tokens, Reply.given] at ht

/-! ## One call -/

/-- The end of the text, as a scanner will give it. -/
def ending (s : Scanner) : Token := .eof s.scan.scanner.position

/-- By returning tokens and sending diagnostics a scanner becomes another: what that one still has to give completes what the
first one had, but for the end of the text, which may have been returned any number of times before. -/
structure Yields (s : Scanner) (tokens : List Token) (diagnostics : List Diagnostic) (s' : Scanner) : Prop where
  tokens_append : ∃ n, tokens ++ s'.scan.tokens = s.scan.tokens ++ List.replicate n s.ending
  diagnostics_append : diagnostics ++ s'.scan.diagnostics = s.scan.diagnostics
  ending_eq : s'.ending = s.ending

/-- A scanner is itself as long as it returns nothing. -/
theorem Yields.refl (s : Scanner) : s.Yields [] [] s := ⟨⟨0, by simp⟩, rfl, rfl⟩

/-- What is returned on the way is returned in order. -/
theorem Yields.trans {s s' s'' : Scanner} {ts ts' : List Token} {ds ds' : List Diagnostic} (h : s.Yields ts ds s')
    (h' : s'.Yields ts' ds' s'') : s.Yields (ts ++ ts') (ds ++ ds') s'' := by
  obtain ⟨⟨n, ht⟩, hd, he⟩ := h
  obtain ⟨⟨n', ht'⟩, hd', he'⟩ := h'
  refine ⟨⟨n + n', ?_⟩, by rw [List.append_assoc, hd', hd], he'.trans he⟩
  rw [List.append_assoc, ht', ← List.append_assoc, ht, List.append_assoc, he, List.replicate_append_replicate]

/-- Behind a scan to the end, only the end of the text is left to give. -/
theorem yields_scan (s : Scanner) : s.Yields s.scan.tokens s.scan.diagnostics s.scan.scanner := by
  have h := scan_of_nil s.rest_scan
  refine ⟨⟨1, ?_⟩, ?_, ?_⟩
  · rw [h]
    rfl
  · rw [h]
    exact List.append_nil _
  · rw [ending, h]
    rfl

/-- The next token is a step along the scan. -/
theorem yields_next (s : Scanner) : s.Yields [s.next.token] s.next.diagnostic.toList s.next.scanner := by
  rcases s.next_cases with ⟨hn, _, hs⟩ | ⟨_, _, hs⟩
  · have h := s.yields_scan
    rw [hs] at h
    rw [hn]
    exact h
  · refine ⟨⟨0, ?_⟩, ?_, ?_⟩
    · rw [hs]
      exact (List.append_nil _).symm
    · rw [hs]
      rfl
    · rw [ending, ending, hs]
      rfl

/-- Every call is a step along the scan. -/
theorem yields_call (s : Scanner) (c : Call) :
    s.Yields (s.call c).1.tokens (s.call c).1.diagnostics (s.call c).2 := by
  cases c with
  | next =>
    have hd : (s.call .next).1.diagnostics = s.next.diagnostic.toList := filterMap_diagnostic _
    rw [hd]
    exact s.yields_next
  | scan =>
    have hd : (s.call .scan).1.diagnostics = s.scan.diagnostics := filterMap_events _
    rw [hd]
    exact s.yields_scan
  | isAtEnd => exact Yields.refl s
  | source => exact Yields.refl s

/-- Every call is answered as it should be. -/
theorem answers_call (s : Scanner) (c : Call) : Answers s.source c (s.call c).1 := by
  cases c with
  | next => exact Answers.next _ _
  | scan =>
    obtain ⟨body, ht, hb⟩ := s.tokens_scan
    rw [call, ht]
    exact Answers.scan _ hb rfl
  | isAtEnd => exact Answers.isAtEnd _
  | source => exact Answers.source

theorem source_call (s : Scanner) (c : Call) : (s.call c).2.source = s.source := by
  cases c with
  | next =>
    rcases s.next_cases with ⟨hn, _⟩ | ⟨_, _, hs⟩
    · rw [call, hn]
      rfl
    · have h := s.source_scan
      rw [hs] at h
      exact (source_scan _).symm.trans h
  | scan => exact s.source_scan
  | isAtEnd => rfl
  | source => rfl

/-- A call that only looks leaves the scanner as it is. -/
theorem call_of_not_reads (s : Scanner) {c : Call} (h : c.reads = false) : (s.call c).2 = s := by
  cases c with
  | next => cases h
  | scan => cases h
  | isAtEnd => rfl
  | source => rfl

/-! ## Several calls -/

/-- The scanner behind several calls. -/
def after (s : Scanner) (calls : List Call) : Scanner := calls.foldl (fun s c => (s.call c).2) s

/-- A session is a run of steps along the scan. -/
theorem yields_session (s : Scanner) (calls : List Call) :
    s.Yields ((s.session calls).flatMap Exchange.tokens) ((s.session calls).flatMap Exchange.diagnostics) (s.after calls) := by
  induction calls generalizing s with
  | nil => exact Yields.refl s
  | cons c calls ih => exact (s.yields_call c).trans (ih _)

/-- A session answers its calls one by one. -/
theorem answers_session (s : Scanner) (calls : List Call) : List.Forall₂ (Answers s.source) calls (s.session calls) := by
  induction calls generalizing s with
  | nil => exact List.Forall₂.nil
  | cons c calls ih =>
    have h := ih (s.call c).2
    rw [source_call] at h
    exact List.Forall₂.cons (s.answers_call c) h

/-- Where a session is cut into exchanges its calls are cut as well. -/
theorem session_split {s : Scanner} {calls : List Call} {before after' : List Exchange} {e : Exchange}
    (h : s.session calls = before ++ e :: after') : ∃ first c last, calls = first ++ c :: last ∧
      before = s.session first ∧ e = ((s.after first).call c).1 ∧ after' = ((s.after first).call c).2.session last := by
  induction before generalizing s calls with
  | nil =>
    cases calls with
    | nil => cases h
    | cons c calls =>
      obtain ⟨rfl, rfl⟩ := List.cons.inj h
      exact ⟨[], c, calls, rfl, rfl, rfl, rfl⟩
  | cons b before ih =>
    cases calls with
    | nil => cases h
    | cons c calls =>
      obtain ⟨rfl, hs⟩ := List.cons.inj h
      obtain ⟨first, c', last, rfl, rfl, he, ha⟩ := ih hs
      exact ⟨c :: first, c', last, rfl, rfl, he, ha⟩

/-- From the end of the text no calls take the scanner on. -/
theorem after_of_nil {s : Scanner} (h : s.rest = []) (calls : List Call) : s.after calls = s := by
  induction calls with
  | nil => rfl
  | cons c calls ih =>
    rw [after, List.foldl_cons, (call_of_nil h c).1]
    exact ih

/-- A session that has returned the end of the text has left nothing. -/
theorem rest_after (s : Scanner) (calls : List Call) {t : Token} (ht : t ∈ (s.session calls).flatMap Exchange.tokens)
    (he : t.isEof = true) : (s.after calls).rest = [] := by
  induction calls generalizing s with
  | nil => simp [session] at ht
  | cons c calls ih =>
    rw [session, List.flatMap_cons] at ht
    rcases List.mem_append.mp ht with ht | ht
    · have hr := s.rest_of_isEof c ht he
      have ha : s.after (c :: calls) = (s.call c).2.after calls := rfl
      rw [ha, after_of_nil hr]
      exact hr
    · exact ih _ ht

/-- Without the calls that only look, a session is the same but for their exchanges. -/
theorem session_filter (s : Scanner) (calls : List Call) :
    ((calls.zip (s.session calls)).filter (fun p => p.1.reads)).map Prod.snd = s.session (calls.filter Call.reads) := by
  induction calls generalizing s with
  | nil => rfl
  | cons c calls ih =>
    cases hc : c.reads with
    | true =>
      simp only [session, List.zip_cons_cons, List.filter_cons, hc, if_true, List.map_cons, ih]
    | false =>
      simp only [session, List.zip_cons_cons, List.filter_cons, hc, Bool.false_eq_true, if_false, ih, s.call_of_not_reads hc]

/-! ## Sinks -/

variable {σ : Type}

/-- Takes tokens one by one up to the end of the text, while a sink is handed each diagnostic as its token is taken. -/
def drain (sink : Sink σ) (state : σ) (s : Scanner) : List Token × σ × Scanner :=
  if _h : s.next.token.isEof = true then
    ([s.next.token], s.next.diagnostic.elim state (sink.handle state), s.next.scanner)
  else
    let (ts, last) := drain sink (s.next.diagnostic.elim state (sink.handle state)) s.next.scanner
    (s.next.token :: ts, last)
termination_by s.rest.length
decreasing_by
  rcases s.next_cases with ⟨hn, _⟩ | ⟨_, hlt, _⟩
  · have he : s.next.token.isEof = true := by rw [hn]; rfl
    contradiction
  · exact hlt

/-- Answers a call while a sink receives what is sent, and gives what becomes of the sink's state. -/
def answer (sink : Sink σ) (state : σ) (s : Scanner) : Call → Reply × σ × Scanner
  | .next => (.token s.next.token, s.next.diagnostic.elim state (sink.handle state), s.next.scanner)
  | .scan =>
    let (ts, state, s) := s.drain sink state
    (.tokens ts, sink.flush state, s)
  | .isAtEnd => (.answer s.isAtEnd, state, s)
  | .source => (.text s.source, state, s)

/-- Answers several calls, each with what has become of the sink's state by then. -/
def serve (sink : Sink σ) (state : σ) (s : Scanner) : List Call → List (Reply × σ)
  | [] => []
  | c :: calls =>
    let (reply, state, s) := s.answer sink state c
    (reply, state) :: serve sink state s calls

/-- A sink that is handed a diagnostic, if there is one, is fed it. -/
theorem elim_eq_feed (sink : Sink σ) (state : σ) (d : Option Diagnostic) :
    d.elim state (sink.handle state) = sink.feed state (d.toList.map Event.diagnostic) := by
  cases d <;> rfl

/-- Taking tokens one by one gives those of a scan, and the sink is fed the diagnostics of the scan. -/
theorem drain_eq (sink : Sink σ) (state : σ) (s : Scanner) :
    s.drain sink state = (s.scan.tokens, sink.feed state (s.scan.diagnostics.map Event.diagnostic), s.scan.scanner) := by
  fun_induction drain sink state s with
  | case1 state s h =>
    rcases s.next_cases with ⟨hn, _, hs⟩ | ⟨hn, _⟩
    · rw [hs, hn]
      rfl
    · rw [hn] at h
      cases h
  | case2 state s h ts last hd ih =>
    rcases s.next_cases with ⟨hn, _⟩ | ⟨_, _, hs⟩
    · have he : s.next.token.isEof = true := by rw [hn]; rfl
      contradiction
    · obtain ⟨rfl, rfl⟩ := Prod.mk.inj (hd.symm.trans ih)
      rw [hs, elim_eq_feed]
      simp only [Scan.cons, List.map_append, Sink.feed, List.foldl_append]

end Scanner

/-- What becomes of a sink's state with the events of several exchanges, next to each reply. -/
def Sink.follow {σ : Type} (sink : Sink σ) (state : σ) : List Exchange → List (Reply × σ)
  | [] => []
  | e :: es => (e.reply, sink.feed state e.events) :: sink.follow (sink.feed state e.events) es

namespace Scanner

/-- Answering calls for a sink is exchanging replies and events and feeding the events to the sink. -/
theorem serve_eq {σ : Type} (sink : Sink σ) (state : σ) (s : Scanner) (calls : List Call) :
    s.serve sink state calls = sink.follow state (s.session calls) := by
  induction calls generalizing state s with
  | nil => rfl
  | cons c calls ih =>
    have ha : s.answer sink state c = ((s.call c).1.reply, sink.feed state (s.call c).1.events, (s.call c).2) := by
      cases c with
      | next => rw [answer, elim_eq_feed, call]
      | scan =>
        rw [answer, drain_eq, call, Scan.events]
        simp only [Sink.feed, List.foldl_append]
        rfl
      | isAtEnd => rfl
      | source => rfl
    rw [serve, ha, session, Sink.follow]
    exact congrArg (List.cons _) (ih _ _)

end Scanner

/-! ## One run -/

/-- Exchanges with the scanner of a source are one run over it. Each answers its call. The tokens they return are those of
the source, from the first on, and behind the last of them the end of the text over and over. Each returns, of the error
tokens of the source, those that come next, and sends just their diagnostics. A scanner says that it is at the end wherever
the end of the text has been returned, and where it says so nothing else is returned and nothing is reported any more. And
calls that only look might as well not have been made. -/
structure OneRun (source : String) (calls : List Call) (exchanges : List Exchange) : Prop where
  answered : List.Forall₂ (Answers source) calls exchanges
  stream : ∃ body last n, (tokenize source).tokens = body ++ [last] ∧ last.isEof = true ∧
    exchanges.flatMap Exchange.tokens <+: (tokenize source).tokens ++ List.replicate n last
  errors : ∀ before e after, exchanges = before ++ e :: after →
    let seen := ((before.flatMap Exchange.tokens).filter Token.isError).length
    let own := (e.tokens.filter Token.isError).length
    e.tokens.filter Token.isError = (((tokenize source).tokens.filter Token.isError).drop seen).take own ∧
      e.diagnostics = ((tokenize source).diagnostics.drop seen).take own
  atEnd : ∀ before b events after, exchanges = before ++ ⟨.answer b, events⟩ :: after →
    ((∃ t ∈ before.flatMap Exchange.tokens, t.isEof = true) → b = true) ∧
      (b = true → ∀ e ∈ after, (∀ t ∈ e.tokens, t.isEof = true) ∧ e.diagnostics = [])
  looking : ((calls.zip exchanges).filter (fun p => p.1.reads)).map Prod.snd =
    (Scanner.ofSource source).session (calls.filter Call.reads)

/-- What a scanner returns and sends on its way holds the error tokens that it has not left to come, each with its
diagnostic. -/
theorem Scanner.Yields.errors {s s' : Scanner} {ts : List Token} {ds : List Diagnostic} (h : s.Yields ts ds s') :
    ts.filter Token.isError ++ s'.scan.tokens.filter Token.isError = s.scan.tokens.filter Token.isError ∧
      ds.length = (ts.filter Token.isError).length := by
  obtain ⟨⟨n, ht⟩, hd, _⟩ := h
  have hending : ¬s.ending.isError = true := Bool.false_ne_true
  have hend : (List.replicate n s.ending).filter Token.isError = [] := List.filter_replicate_of_neg hending
  have hf := congrArg (List.filter Token.isError) ht
  rw [List.filter_append, List.filter_append, hend, List.append_nil] at hf
  refine ⟨hf, ?_⟩
  have hl := congrArg List.length hf
  have hld := congrArg List.length hd
  rw [List.length_append] at hl hld
  rw [s.length_diagnostics_scan, s'.length_diagnostics_scan] at hld
  omega

theorem take_drop_append {α : Type} {as bs cs ds : List α} {n m : Nat} (h : as ++ (bs ++ cs) = ds) (ha : as.length = n)
    (hb : bs.length = m) : (ds.drop n).take m = bs := by
  rw [← h, List.drop_left' ha, List.take_left' hb]

/-- Whatever calls a caller makes of the scanner of a source, the exchanges are one run over the source, and a sink that
receives what is sent is fed the events of the exchanges. -/
theorem session_one_run (source : String) (calls : List Call) :
    OneRun source calls ((Scanner.ofSource source).session calls) ∧
    ∀ {σ : Type} (sink : Sink σ) (state : σ),
      (Scanner.ofSource source).serve sink state calls = sink.follow state ((Scanner.ofSource source).session calls) := by
  refine ⟨⟨?_, ?_, ?_, ?_, Scanner.session_filter _ calls⟩, fun sink state => Scanner.serve_eq sink state _ calls⟩
  · have h := (Scanner.ofSource source).answers_session calls
    rwa [Scanner.source_ofSource] at h
  · obtain ⟨body, ht, _⟩ := (Scanner.ofSource source).tokens_scan
    obtain ⟨⟨n, hy⟩, _⟩ := (Scanner.ofSource source).yields_session calls
    exact ⟨body, _, n, ht, rfl, ⟨_, hy⟩⟩
  · intro before e after h
    obtain ⟨first, c, last, rfl, rfl, rfl, rfl⟩ := Scanner.session_split h
    have hbefore := (Scanner.ofSource source).yields_session first
    have hown := ((Scanner.ofSource source).after first).yields_call c
    have htokens := hbefore.errors.1
    rw [← hown.errors.1] at htokens
    have hdiagnostics := hbefore.diagnostics_append
    rw [← hown.diagnostics_append] at hdiagnostics
    exact ⟨(take_drop_append htokens rfl rfl).symm, (take_drop_append hdiagnostics hbefore.errors.2 hown.errors.2).symm⟩
  · intro before b events after h
    obtain ⟨first, c, last, rfl, rfl, he, rfl⟩ := Scanner.session_split h
    -- only the question whether it is at the end is answered with yes or no
    have hc : c = .isAtEnd ∧ b = ((Scanner.ofSource source).after first).isAtEnd := by
      cases c <;> simp_all [Scanner.call]
    obtain ⟨rfl, rfl⟩ := hc
    refine ⟨?_, fun hb => Scanner.session_of_nil (List.isEmpty_iff.mp hb) last⟩
    rintro ⟨t, ht, heof⟩
    exact List.isEmpty_iff.mpr (Scanner.rest_after _ first ht heof)

end MiniLex
