import MiniLex.Proofs.Transfer

/-!
# What a beginning settles

Two sources that begin with the same text have the same tokens and the same diagnostics as far as that text goes, but for
its last two characters: a token behind which two of them are left does not depend on anything that comes later
(`settled_token`). The two scans are followed side by side; as long as two characters of the common text are left behind a
lexeme, the second scan repeats the step of the first (`Scanner.repeats_of_shared`).
-/

namespace MiniLex

open Grammar

/-! ## Diagnostics of tokens -/

/-- The diagnostic that comes with the token at an index, if that is malformed: as many come before it as there are error
tokens. -/
def Scan.diagnosticAt (s : Scan) (i : Nat) : Option Diagnostic :=
  s.diagnostics[((s.tokens.take i).filter Token.isError).length]?

namespace Scanner

variable {s : Scanner} {l : Lexeme} {rest : List Char}

/-- Behind a lexeme the diagnostics are those of the scan there. -/
theorem diagnosticAt_succ (s : Scanner) (l : Lexeme) (rest : List Char) (scan : Scan) (i : Nat) :
    (Scan.cons (s.stepOver l rest) scan).diagnosticAt (i + 1) = scan.diagnosticAt i := by
  unfold Scan.diagnosticAt
  cases he : l.kind.error? with
  | none =>
    rw [diagnostics_of_none he, Scan.cons, List.take_succ_cons, List.filter_cons_of_neg (isError_of_none he)]
  | some e =>
    rw [diagnostics_of_some he, Scan.cons, List.take_succ_cons, List.filter_cons_of_pos (isError_of_some he),
      List.length_cons, List.getElem?_cons_succ]

/-- The diagnostic of a lexeme that is an error is the one of its step, and names the error. -/
theorem diagnosticAt_zero (h : (s.stepOver l rest).token.isError = true) (scan : Scan) :
    ∃ d, (s.stepOver l rest).diagnostic = some d ∧ (Scan.cons (s.stepOver l rest) scan).diagnosticAt 0 = some d ∧
      l.kind = .error d.error := by
  cases he : l.kind.error? with
  | none =>
    exact absurd h (isError_of_none he)
  | some e =>
    refine ⟨e.diagnose s.position (s.behind l rest).position rest, by rw [stepOver, he]; rfl, ?_, ?_⟩
    · unfold Scan.diagnosticAt
      rw [diagnostics_of_some he]
      rfl
    · rw [(Kind.error?_eq_some_iff _ _).mp he, LexError.error_diagnose]

end Scanner

/-! ## Two scans side by side -/

namespace Scanner

/-- Where two characters of a common text are left behind a lexeme, another scanner in the same place repeats the step, with
what comes behind the common text exchanged. -/
theorem repeats_of_shared {s s' : Scanner} {l : Lexeme} {rest shared a b : List Char}
    (h : Lexeme.read? s.skip.rest = some (l, rest)) (hr : rest = shared ++ a) (hs : 2 ≤ shared.length)
    (ht : s'.rest = s.gap ++ (l.text ++ (shared ++ b))) (hp : s'.position = s.position) :
    s.Repeats l rest s' (shared ++ b) := by
  have hne : shared ≠ [] := by
    rintro rfl
    simp at hs
  have hends := Lexeme.endsBefore_of_read? h
  subst hr
  refine repeats_of_glimpse h ht hp (glimpse_append hs b a) (fun _ => ?_) (fun hk => ?_)
  · rw [List.head?_append_of_ne_nil _ hne, List.head?_append_of_ne_nil _ hne]
  · exact hne (List.append_eq_nil_iff.mp (hends.eq_nil_of_endless hk)).1

/-- Of two scanners in the same place whose texts begin alike, the second gives every token of the first that ends in the
common text with two characters left, at the same index and with the same diagnostic. -/
theorem scan_shared (s : Scanner) : ∀ (s' : Scanner) (shared a b : List Char), s.rest = shared ++ a →
    s'.rest = shared ++ b → s'.position = s.position → ∀ (i : Nat) (t : Token), s.scan.tokens[i]? = some t →
    t.isEof = false → ∀ pre post, shared = pre ++ post → 2 ≤ post.length →
    t.span.stop = s.position.offset + byteLength pre →
    s'.scan.tokens[i]? = some t ∧
      (t.isError = true → ∃ d, s.scan.diagnosticAt i = some d ∧ s'.scan.diagnosticAt i = some d ∧
        t.kind = .error d.error) := by
  induction s using scan_induction with
  | stop s _ =>
    intro s' shared a b _ _ _ i t hi hn
    have ht := List.mem_of_getElem? hi
    obtain rfl := List.mem_singleton.mp ht
    cases hn
  | step s l rest hl ih =>
    intro s' shared a b hs hs' hp i t hi hn pre post hpre hpost hstop
    have hgap := gap_append_text hl
    have hoffset : (s.skip.behind l rest).position.offset = s.position.offset + byteLength (s.gap ++ l.text) := by
      rw [offset_behind, offset_skip, byteLength_append, Nat.add_assoc]
    -- no token ends in front of the end of the first
    have hle : (s.skip.behind l rest).position.offset ≤ t.span.stop := by
      cases i with
      | zero =>
        obtain rfl := Option.some.inj hi
        exact Nat.le_refl _
      | succ i =>
        have htiles := tiles_scan (s.skip.behind l rest)
        have hmem : t ∈ (s.skip.behind l rest).scan.tokens := List.mem_of_getElem? hi
        exact Nat.le_trans (htiles.offset_le t hmem) (htiles.start_le_stop t hmem)
    have hsplit : (s.gap ++ l.text) ++ rest = pre ++ (post ++ a) := by
      rw [List.append_assoc, hgap, hs, hpre, List.append_assoc]
    obtain ⟨mid, rfl, hrest⟩ := append_eq_of_byteLength_le hsplit (by omega)
    have hlen : 2 ≤ (mid ++ post).length := by
      rw [List.length_append]
      omega
    rw [← List.append_assoc] at hrest
    have hs'' : s'.rest = s.gap ++ (l.text ++ ((mid ++ post) ++ b)) := by simp [hs', hpre]
    have hrep := repeats_of_shared hl hrest hlen hs'' hp
    rw [scan_step s' l _ hrep.read]
    cases i with
    | zero =>
      obtain rfl := Option.some.inj hi
      refine ⟨congrArg some hrep.token, fun he => ?_⟩
      obtain ⟨d, hd, hat, hkind⟩ := diagnosticAt_zero he (s.skip.behind l rest).scan
      have he' : (s'.skip.stepOver l ((mid ++ post) ++ b)).token.isError = true := by
        rw [hrep.token]
        exact he
      obtain ⟨d', hd', hat', -⟩ := diagnosticAt_zero he' (s'.skip.behind l ((mid ++ post) ++ b)).scan
      rw [hrep.diagnostic, hd] at hd'
      obtain rfl := Option.some.inj hd'
      exact ⟨d, hat, hat', hkind⟩
    | succ i =>
      have hstop' : t.span.stop = (s.skip.behind l rest).position.offset + byteLength mid := by
        rw [hstop, hoffset, byteLength_append, Nat.add_assoc]
      rw [diagnosticAt_succ, diagnosticAt_succ]
      exact ih _ (mid ++ post) a b hrest rfl hrep.behind i t hi hn mid post rfl hpost hstop'

end Scanner

/-! ## Sources -/

/-- A token ends in a text that a source begins with, and so many characters of the text are left behind it. -/
def Token.EndsWithin (t : Token) (text : String) (left : Nat) : Prop :=
  ∃ pre post, text.toList = pre ++ post ∧ t.span.stop = byteLength pre ∧ left ≤ post.length

/-- What comes two characters behind a token, or later, has no influence on it: in every source that begins alike so far it
stands at the same index, the same in everything, and if it is an error token so is its diagnostic. -/
theorem settled_token (p a b : String) (i : Nat) (t : Token) (hi : (tokenize (p ++ a)).tokens[i]? = some t)
    (hn : t.isEof = false) (hw : t.EndsWithin p 2) :
    (tokenize (p ++ b)).tokens[i]? = some t ∧
      (t.isError = true → ∃ d, (tokenize (p ++ a)).diagnosticAt i = some d ∧ (tokenize (p ++ b)).diagnosticAt i = some d ∧
        t.kind = .error d.error) := by
  obtain ⟨pre, post, hp, hstop, hleft⟩ := hw
  have hne : p.toList ≠ [] := by
    intro he
    rw [he] at hp
    obtain ⟨-, rfl⟩ := List.append_eq_nil_iff.mp hp.symm
    simp at hleft
  have htiles := tiles_tokenize (p ++ a)
  rw [markOf_append hne] at htiles
  have hmem := List.mem_of_getElem? hi
  have hle := Nat.le_trans (htiles.offset_le t hmem) (htiles.start_le_stop t hmem)
  have hsplit : markOf p ++ textOf p = pre ++ post := (markOf_append_textOf p).trans hp
  obtain ⟨mid, rfl, htext⟩ := append_eq_of_byteLength_le hsplit (hstop ▸ hle)
  rw [byteLength_append] at hstop
  have hstart : ∀ c, Scanner.ofSource (p ++ c) = ⟨p ++ c, textOf p ++ c.toList, ⟨byteLength (markOf p), 1, 1⟩⟩ := by
    intro c
    rw [ofSource_eq, markOf_append hne, textOf_append hne]
  refine Scanner.scan_shared (Scanner.ofSource (p ++ a)) (Scanner.ofSource (p ++ b)) (textOf p) a.toList b.toList
    (by rw [hstart]) (by rw [hstart]) (by rw [hstart, hstart]) i t hi hn mid post htext hleft ?_
  rw [hstart]
  exact hstop

/-- That a number which is too large ends in front of a point is seen by the character behind the point, and nothing further
changes it. -/
theorem settled_token_point :
    let p := "18446744073709551616.x"
    let t : Token := ⟨.error .numberOutOfRange, "18446744073709551616", 1, 1, ⟨0, 20⟩, none⟩
    (tokenize (p ++ "\"")).tokens[0]? = some t ∧ t.isEof = false ∧ t.EndsWithin p 2 ∧
      (tokenize (p ++ "5")).tokens[0]? = some t ∧
      (t.isError = true → ∃ d, (tokenize (p ++ "\"")).diagnosticAt 0 = some d ∧ (tokenize (p ++ "5")).diagnosticAt 0 = some d ∧
        t.kind = .error d.error) := by
  intro p t
  have hi : (tokenize (p ++ "\"")).tokens[0]? = some t := by decide +kernel
  have hw : t.EndsWithin p 2 := ⟨"18446744073709551616".toList, ['.', 'x'], by decide, by decide, Nat.le_refl 2⟩
  exact ⟨hi, rfl, hw, settled_token p "\"" "5" 0 t hi rfl hw⟩

end MiniLex
