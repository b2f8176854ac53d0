import Mathlib.Data.List.Forall2
import MiniLex.Cursor
import MiniLex.Listing
import MiniLex.Proofs.Seam
import MiniLex.Proofs.Tiling

/-!
# Errors

Every error token of a source comes with one diagnostic and every diagnostic with one error token, in the same order, and the
two say the same of the same text (`tokenize_reported`). So whoever counts error tokens counts diagnostics, and whoever looks
for one finds the other. What a diagnostic is about depends on its error (`Diagnostic.About`), and so does the reason: the
grammar says what a malformed text is, and the seams around it that a run of digits is taken whole.
-/

namespace MiniLex

open Grammar

/-! ## Diagnostics and error tokens -/

/-- A diagnostic stands where a token does. -/
def Diagnostic.At (d : Diagnostic) (t : Token) : Prop := d.span = t.span ∧ d.line = t.line ∧ d.column = t.column

/-- What a diagnostic says of an error token of a source, with what stands in front of the token, at it and behind it. -/
def Diagnostic.About (d : Diagnostic) (source : String) (t : Token) (pre text post : List Char) : Prop :=
  match d.error with
  | .unexpectedCharacter c => d.At t ∧ text = [c]
  | .loneAmpersand => d.At t ∧ text = ['&'] ∧ post.head? ≠ some '&'
  | .lonePipe => d.At t ∧ text = ['|'] ∧ post.head? ≠ some '|'
  | .numberOutOfRange => d.At t ∧ Digits text ∧ (∀ c, pre.getLast? = some c → c.isDigit = false) ∧
      ∀ c, post.head? = some c → c.isDigit = false
  | .brokenString => d.span = ⟨t.span.stop, t.span.stop + 1⟩ ∧ (post.head? = some '\r' ∨ post.head? = some '\n')
  | .endlessString => t.span.stop = source.utf8ByteSize ∧ d.span = .point source.utf8ByteSize

/-- A diagnostic reports an error token of a source: it names its error and is about it. -/
def Reports (source : String) (d : Diagnostic) (t : Token) : Prop :=
  t.kind = .error d.error ∧ ∃ pre post, t.span.Parts source pre t.lexeme.toList post ∧
    d.About source t pre t.lexeme.toList post

/-! ## One error -/

/-- A word is neither an error nor a number. -/
theorem Grammar.WordKind.not_number {word : List Char} {kind : Kind} (h : WordKind word kind) :
    kind.isError = false ∧ kind ≠ .literal .int := by
  cases h <;> simp [Kind.isError]

/-- No pattern is that of an error. -/
theorem Grammar.Matches.not_error {kind : Kind} {text : List Char} (h : Matches kind text) : kind.isError = false := by
  cases h with
  | word _ _ hw => exact hw.not_number.1
  | _ => rfl

/-- What has the pattern of an integer is a run of digits. -/
theorem Grammar.Matches.digits {text : List Char} (h : Matches (.literal .int) text) : Digits text := by
  generalize hk : Kind.literal .int = kind at h
  cases h with
  | word _ _ hw => exact absurd hk.symm hw.not_number.2
  | int hd => exact hd
  | _ => simp at hk

/-- A text that is read as an error is a run of digits that could not go on, or it is malformed. -/
theorem Grammar.Reads.of_error {e : LexError} {text rest : List Char} (h : Reads (.error e) text rest) :
    (e = .numberOutOfRange ∧ Digits text) ∨ (Unmatched (text ++ rest) ∧ Malformed e text rest) := by
  generalize hk : Kind.error e = kind at h
  cases h with
  | token hm _ _ =>
    have hn := hm.not_error
    rw [← hk] at hn
    exact absurd hn (by simp [Kind.isError])
  | outOfRange hm _ _ => exact Or.inl ⟨Kind.error.inj hk, hm.digits⟩
  | malformed hn hm =>
    obtain rfl := Kind.error.inj hk
    exact Or.inr ⟨hn, hm⟩

/-- Where no pattern comes first, a character is not followed by another that makes a pattern with it. -/
theorem Grammar.Unmatched.head?_ne {c d : Char} {rest : List Char} (h : Unmatched ([c] ++ rest)) (hp : HasPattern [c, d]) :
    rest.head? ≠ some d := by
  intro hd
  obtain ⟨after, rfl⟩ := List.head?_eq_some_iff.mp hd
  exact h [c, d] hp ⟨after, rfl⟩

/-- The mark that a source begins with does not end in a digit. -/
theorem markOf_last (source : String) (c : Char) (h : (markOf source).getLast? = some c) : c.isDigit = false := by
  unfold markOf at h
  split at h
  · obtain rfl := Option.some.inj h
    decide
  · simp at h

/-- A run of digits between two seams is not part of a longer one. -/
theorem Seam.digits_maximal {source : String} {read text rest : List Char} (hl : Seam read (text ++ rest))
    (hr : Seam text rest) (hd : Digits text) :
    (∀ c, (markOf source ++ read).getLast? = some c → c.isDigit = false) ∧
      ∀ c, rest.head? = some c → c.isDigit = false := by
  refine ⟨fun c hc => ?_, fun c hc => ?_⟩
  · by_cases hn : read = []
    · rw [hn, List.append_nil] at hc
      exact markOf_last source c hc
    · rw [List.getLast?_append_of_ne_nil _ hn] at hc
      obtain ⟨d, ds, rfl⟩ := List.exists_cons_of_ne_nil hd.1
      by_contra hcd
      exact (hl c d hc rfl).2 ⟨by simpa using hcd, hd.2 d (by simp)⟩
  · have hlast := List.getLast?_eq_some_getLast hd.1
    by_contra hcd
    exact (hr _ c hlast hc).2 ⟨hd.2 _ (List.getLast_mem hd.1), by simpa using hcd⟩

/-- The text that a scanner reads behind what it has read, as parts of its source. -/
theorem Scanner.Stands.parts {s : Scanner} {read : List Char} (h : s.Stands read) {text rest : List Char}
    (ht : text ++ rest = s.rest) :
    (Span.mk s.position.offset (s.position.advance text).offset).Parts s.source (markOf s.source ++ read) text rest := by
  have ho : s.position.offset = byteLength (markOf s.source ++ read) := by
    rw [h.position, offset_advance, byteLength_append]
    rfl
  refine ⟨?_, ho, ?_⟩
  · rw [ht, List.append_assoc, ← h.text, markOf_append_textOf]
  · rw [← ho]
    exact offset_advance _ _

/-- The diagnostic of a lexeme that is an error reports its token. -/
theorem reports_stepOver {s : Scanner} {read : List Char} (h : s.Stands read) (hb : ¬StartsBetween s.rest) {l : Lexeme}
    {rest : List Char} (hl : Lexeme.read? s.rest = some (l, rest)) {e : LexError} (he : l.kind = .error e) :
    Reports s.source (e.diagnose s.position (s.behind l rest).position rest) (s.stepOver l rest).token := by
  have ht := Lexeme.text_append_of_read? s.rest rest l hl
  have hr := Lexeme.reads_of_read? s.rest rest l hl
  have hp := h.parts ht
  have hseam := h.seam
  rw [← ht] at hseam hb
  have hseam' := hr.seam hb
  rw [he] at hr
  have hlexeme := s.lexeme_stepOver l rest
  refine ⟨by rw [LexError.error_diagnose]; exact he, markOf s.source ++ read, rest, by rw [hlexeme]; exact hp, ?_⟩
  rw [hlexeme]
  rcases hr.of_error with ⟨rfl, hd⟩ | ⟨hn, hm⟩
  · exact ⟨⟨rfl, rfl, rfl⟩, hd, hseam.digits_maximal hseam' hd⟩
  · generalize htext : l.text = text at hn hm
    cases hm with
    | @brokenString body rest c _ hc =>
      refine ⟨?_, by simpa using hc⟩
      have hone : byteLength ((c :: rest).take 1) = 1 := by
        rcases hc with rfl | rfl <;> rfl
      simp only [LexError.diagnose, LexError.showsAtEnd, if_true, hone]
      rfl
    | endlessString =>
      have hend : (s.position.advance l.text).offset = s.source.utf8ByteSize := by
        rw [← byteLength_toList, hp.1, List.append_nil, byteLength_append]
        exact hp.2.2
      refine ⟨hend, ?_⟩
      rw [← hend]
      rfl
    | loneAmpersand => exact ⟨⟨rfl, rfl, rfl⟩, rfl, hn.head?_ne ⟨_, Matches.operator .and⟩⟩
    | lonePipe => exact ⟨⟨rfl, rfl, rfl⟩, rfl, hn.head?_ne ⟨_, Matches.operator .or⟩⟩
    | unexpected _ _ _ => exact ⟨⟨rfl, rfl, rfl⟩, rfl⟩

theorem Scanner.offset_le_skip (s : Scanner) : s.position.offset ≤ s.skip.position.offset := by
  have ho := s.offset_skip
  omega

/-- A scanner that has a line break in front of it stands in front of the gap, not behind it. -/
theorem Scanner.offset_lt_skip (s : Scanner) {c : Char} (hr : s.rest.head? = some c) (hc : c = '\r' ∨ c = '\n') :
    s.position.offset < s.skip.position.offset := by
  obtain ⟨rest, hr⟩ := List.head?_eq_some_iff.mp hr
  have ho := s.offset_skip
  have hgap : s.gap ≠ [] := by
    intro hn
    have hs := s.gap_append_skip
    rw [hn, List.nil_append] at hs
    refine s.not_startsBetween_skip (Or.inl ⟨[c], rest, hs.trans hr, Piece.blank ?_⟩)
    exact Or.inr (Or.inr hc)
  have hpos := byteLength_pos hgap
  omega

/-- A diagnostic stands no nearer to the beginning than its token, and in front of everything that is read behind the token,
if there is more text. -/
theorem diagnose_start {s : Scanner} {l : Lexeme} {rest : List Char} (hl : Lexeme.read? s.rest = some (l, rest))
    {e : LexError} (he : l.kind = .error e) :
    let d := e.diagnose s.position (s.behind l rest).position rest
    s.position.offset ≤ d.span.start ∧ (rest = [] ∨ d.span.start < (s.behind l rest).skip.position.offset) := by
  have hstop := s.offset_behind l rest
  have hpos := byteLength_pos (Lexeme.text_ne_nil_of_read? s.rest rest l hl)
  have hskip := (s.behind l rest).offset_le_skip
  have hr := Lexeme.reads_of_read? s.rest rest l hl
  rw [he] at hr
  intro d
  by_cases hs : e.showsAtEnd = true
  · have hd : d.span.start = (s.behind l rest).position.offset := by simp only [d, LexError.diagnose, if_pos hs]
    refine ⟨by omega, ?_⟩
    rcases hr.of_error with ⟨rfl, _⟩ | ⟨_, hm⟩
    · exact absurd hs (by decide)
    · generalize l.text = text at hm
      cases hm with
      | @brokenString body rest c _ hc =>
        have hlt := (s.behind l (c :: rest)).offset_lt_skip rfl hc
        exact Or.inr (by omega)
      | endlessString => exact Or.inl rfl
      | loneAmpersand => exact absurd hs (by decide)
      | lonePipe => exact absurd hs (by decide)
      | unexpected => exact absurd hs (by simp [LexError.showsAtEnd])
  · have hd : d.span.start = s.position.offset := by simp only [d, LexError.diagnose, if_neg hs]
    exact ⟨by omega, Or.inr (by omega)⟩

/-! ## All errors -/

/-- What is wrong with text of a kind is what the kind is an error of. -/
theorem Kind.error?_eq_some_iff (k : Kind) (e : LexError) : k.error? = some e ↔ k = .error e := by
  cases k <;> simp [Kind.error?]

theorem Kind.error?_eq_none_iff (k : Kind) : k.error? = none ↔ k.isError = false := by
  cases k <;> simp [Kind.error?, Kind.isError]

namespace Scanner

variable {s : Scanner} {l : Lexeme} {rest : List Char} {e : LexError}

theorem isError_of_none (he : l.kind.error? = none) : ¬(s.stepOver l rest).token.isError = true :=
  Bool.eq_false_iff.mp ((Kind.error?_eq_none_iff _).mp he)

theorem isError_of_some (he : l.kind.error? = some e) : (s.stepOver l rest).token.isError = true :=
  congrArg Kind.isError ((Kind.error?_eq_some_iff _ _).mp he)

/-- The diagnostics behind a lexeme that is no error are all there are. -/
theorem diagnostics_of_none (he : l.kind.error? = none) (scan : Scan) :
    (Scan.cons (s.stepOver l rest) scan).diagnostics = scan.diagnostics := by
  simp only [Scan.cons, stepOver, he, Option.map_none, Option.toList_none, List.nil_append]

/-- The diagnostic of a lexeme that is an error comes in front of those behind it. -/
theorem diagnostics_of_some (he : l.kind.error? = some e) (scan : Scan) :
    (Scan.cons (s.stepOver l rest) scan).diagnostics =
      e.diagnose s.position (s.behind l rest).position rest :: scan.diagnostics := by
  simp only [Scan.cons, stepOver, he, Option.map_some, Option.toList_some, List.cons_append, List.nil_append]

end Scanner

/-- The diagnostics of a scan report its error tokens, one each. -/
theorem reports_scan (s : Scanner) : ∀ read, s.Stands read →
    List.Forall₂ (Reports s.source) s.scan.diagnostics (s.scan.tokens.filter Token.isError) := by
  induction s using Scanner.scan_induction with
  | stop s _ =>
    intro read _
    exact List.Forall₂.nil
  | step s l rest hl ih =>
    intro read h
    have hrest := ih _ (h.skip.behind s.not_startsBetween_skip hl)
    cases he : l.kind.error? with
    | none =>
      rw [Scanner.diagnostics_of_none he, Scan.cons, List.filter_cons_of_neg (Scanner.isError_of_none he)]
      exact hrest
    | some e =>
      have hkind := (Kind.error?_eq_some_iff _ _).mp he
      rw [Scanner.diagnostics_of_some he, Scan.cons, List.filter_cons_of_pos (Scanner.isError_of_some he)]
      exact List.Forall₂.cons (reports_stepOver h.skip s.not_startsBetween_skip hl hkind) hrest

/-- A scan reports nothing in front of where it begins behind the gap, and one diagnostic behind the other. -/
theorem increasing_scan (s : Scanner) : (∀ d ∈ s.scan.diagnostics, s.skip.position.offset ≤ d.span.start) ∧
    s.scan.diagnostics.Pairwise (fun a b => a.span.start < b.span.start) := by
  induction s using Scanner.scan_induction with
  | stop s _ => exact ⟨fun d hd => absurd hd List.not_mem_nil, List.Pairwise.nil⟩
  | step s l rest hl ih =>
    obtain ⟨hfrom, hpairwise⟩ := ih
    have hstop : s.skip.position.offset ≤ (s.skip.behind l rest).skip.position.offset := by
      have ho := s.skip.offset_behind l rest
      have hskip := (s.skip.behind l rest).offset_le_skip
      omega
    cases he : l.kind.error? with
    | none =>
      rw [Scanner.diagnostics_of_none he]
      exact ⟨fun d hd => Nat.le_trans hstop (hfrom d hd), hpairwise⟩
    | some e =>
      obtain ⟨hstart, hnext⟩ := diagnose_start hl ((Kind.error?_eq_some_iff _ _).mp he)
      rw [Scanner.diagnostics_of_some he]
      refine ⟨fun d hd => ?_, List.pairwise_cons.mpr ⟨fun d hd => ?_, hpairwise⟩⟩
      · rcases List.mem_cons.mp hd with rfl | hd
        · exact hstart
        · exact Nat.le_trans hstop (hfrom d hd)
      · rcases hnext with rfl | hlt
        · -- behind the end of the text nothing is reported
          have hn : (s.skip.behind l []).skip.rest = [] := congrArg Prod.snd Trivia.split_nil
          rw [Scanner.scan_stop _ hn] at hd
          exact absurd hd List.not_mem_nil
        · exact Nat.lt_of_lt_of_le hlt (hfrom d hd)

/-- The diagnostics of a source report its error tokens, one each. -/
theorem reports_tokenize (source : String) :
    List.Forall₂ (Reports source) (tokenize source).diagnostics ((tokenize source).tokens.filter Token.isError) := by
  have h := reports_scan _ _ (Scanner.stands_ofSource source)
  rwa [Scanner.source_ofSource] at h

/-- Diagnostics report the error tokens among some tokens: the same errors in the same order, each about its token, and one
behind the other in the source. -/
structure Reported (source : String) (tokens : List Token) (diagnostics : List Diagnostic) : Prop where
  errors_eq : diagnostics.map (·.error) = tokens.filterMap (fun t => t.kind.error?)
  reports : List.Forall₂ (Reports source) diagnostics (tokens.filter Token.isError)
  increasing : diagnostics.Pairwise (fun a b => a.span.start < b.span.start)

/-- Diagnostics that report error tokens one by one name what is wrong with the tokens. -/
theorem errors_of_reports {source : String} {diagnostics : List Diagnostic} {tokens : List Token}
    (h : List.Forall₂ (Reports source) diagnostics (tokens.filter Token.isError)) :
    diagnostics.map (·.error) = tokens.filterMap (fun t => t.kind.error?) := by
  induction tokens generalizing diagnostics with
  | nil =>
    obtain rfl := List.forall₂_nil_right_iff.mp h
    rfl
  | cons t ts ih =>
    cases he : t.kind.error? with
    | none =>
      have hk : ¬t.isError = true := Bool.eq_false_iff.mp ((Kind.error?_eq_none_iff _).mp he)
      rw [List.filter_cons_of_neg hk] at h
      rw [List.filterMap_cons, he]
      exact ih h
    | some e =>
      have hkind := (Kind.error?_eq_some_iff _ _).mp he
      have hk : t.isError = true := congrArg Kind.isError hkind
      rw [List.filter_cons_of_pos hk] at h
      obtain ⟨d, ds, hd, hds, rfl⟩ := List.forall₂_cons_right_iff.mp h
      rw [List.filterMap_cons, he, List.map_cons, ih hds, Kind.error.inj (hd.1.symm.trans hkind)]

/-- A cursor finds an error where one of its tokens is malformed: the end of the text that it may add is not. -/
theorem hasErrors_ofTokens (tokens : List Token) : (Cursor.ofTokens tokens).hasErrors = tokens.any Token.isError := by
  have heof : ∀ last, (Cursor.eofBehind last).isError = false := by
    intro last
    cases last <;> rfl
  have hany : (Cursor.terminated tokens).any Token.isError = tokens.any Token.isError := by
    unfold Cursor.terminated
    split
    · rfl
    · simp [heof]
  unfold Cursor.ofTokens Cursor.hasErrors
  rw [← hany]
  split
  · next h => simp [h, Cursor.tokens, heof]
  · next t ts h => simp [h, Cursor.tokens]

/-- The diagnostics of a source report its error tokens. Their number is the number of error tokens and the one that a
listing counts. A cursor over the tokens finds an error, and so does a listing, exactly when a diagnostic is sent. -/
theorem tokenize_reported (source : String) :
    Reported source (tokenize source).tokens (tokenize source).diagnostics ∧
    ((tokenize source).tokens.filter Token.isError).length = (tokenize source).diagnostics.length ∧
    (∀ {σ : Type} (sink : Sink σ) (state : σ),
      (Listing.ofSource sink state source).1.errorCount = (tokenize source).diagnostics.length ∧
      ((Listing.ofSource sink state source).1.hasErrors = true ↔ ∃ d, Event.diagnostic d ∈ (tokenize source).events)) ∧
    ((Cursor.ofTokens (tokenize source).tokens).hasErrors = true ↔ ∃ d, Event.diagnostic d ∈ (tokenize source).events) := by
  have hreports := reports_tokenize source
  have hlength := hreports.length_eq.symm
  have hsent : (∃ d, Event.diagnostic d ∈ (tokenize source).events) ↔ 0 < (tokenize source).diagnostics.length := by
    simp [Scan.events, List.length_pos_iff_exists_mem]
  refine ⟨⟨errors_of_reports hreports, hreports, (increasing_scan _).2⟩, hlength, fun sink state => ⟨?_, ?_⟩, ?_⟩
  · rw [← hlength, ← List.countP_eq_length_filter]
    rfl
  · rw [hsent, ← hlength, ← List.countP_eq_length_filter]
    exact decide_eq_true_iff
  · rw [hsent, ← hlength, ← List.countP_eq_length_filter, hasErrors_ofTokens, List.any_eq_true, List.countP_pos_iff]

end MiniLex
