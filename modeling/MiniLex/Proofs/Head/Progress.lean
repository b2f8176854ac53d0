import MiniLex.Proofs.Head.Calls

/-!
# Safety and progress

However calls are mixed, a head answers them as a scanner does, without a slice that cannot be taken, and wherever it has come to,
the next token either takes the cursor on or leaves it at the end of the source (`session_safe`).
-/

namespace MiniLex

namespace Scanner

variable {s : Scanner}

/-- A scan gives at most one token for each character that is left, and the end of the text. -/
theorem length_tokens_scan (s : Scanner) : s.scan.tokens.length ≤ s.rest.length + 1 := by
  induction s using scan_induction with
  | stop s _ => exact Nat.succ_le_succ (Nat.zero_le _)
  | step s l rest h ih =>
    have hlt := Lexeme.length_lt_of_read? _ rest l h
    have hle := s.length_skip_le
    have hrest : (s.skip.behind l rest).rest = rest := rfl
    rw [hrest] at ih
    simp only [Scan.cons, List.length_cons]
    omega

theorem source_after (s : Scanner) (calls : List Call) : (s.after calls).source = s.source := by
  induction calls generalizing s with
  | nil => rfl
  | cons c calls ih => exact (ih (s.call c).2).trans (s.source_call c)

theorem Placed.length_rest_le (h : s.Placed) : s.rest.length ≤ s.source.length := by
  obtain ⟨front, hs, -⟩ := h
  rw [← String.length_toList, hs, List.length_append]
  exact Nat.le_add_left _ _

end Scanner

namespace Head

/-- Wherever a head stands, calls make progress: the next token takes the cursor on, or it is the end of the text and leaves the
cursor at the end of the source. All tokens up to there are at most one more than the source has characters. No call fails, or
forgets what was done before, and all that is done is safe. -/
structure Progresses (h : Head) : Prop where
  next : ∃ token diagnostic h', Head.next.run h = some ((token, diagnostic), h') ∧ h'.Safe ∧ h.touches <:+ h'.touches ∧
    (token.isEof = false → h.cursor.offset < h'.cursor.offset) ∧
    (token.isEof = true → h'.cursor.offset = h.source.utf8ByteSize)
  scan : ∃ tokens diagnostics h', Head.scan.run h = some ((tokens, diagnostics), h') ∧ h'.Safe ∧ h.touches <:+ h'.touches ∧
    h'.cursor.offset = h.source.utf8ByteSize ∧ tokens.length ≤ h.source.length + 1

variable {h : Head} {s : Scanner}

/-- A head that shows a scanner with nothing left to read stands at the end of its source. -/
theorem Shows.offset_eq (hs : h.Shows s) (hr : s.rest = []) : h.cursor.offset = s.source.utf8ByteSize := by
  have hle := hs.placed.cursor_safe.1
  have hge := (isAtEnd_iff hs.placed).mpr hr
  rw [hs.cursor_eq]
  exact Nat.le_antisymm hle hge

/-- A head that shows a scanner makes progress. -/
theorem Shows.progresses (hs : h.Shows s) : h.Progresses := by
  constructor
  · obtain ⟨h', hrun, hs', hkept⟩ := leads_next s h hs
    refine ⟨_, _, h', hrun, hs'.safe, hkept, fun heof => ?_, fun heof => ?_⟩
    · obtain ⟨text, -, hne, hoffset⟩ := Scanner.exists_next heof
      have hpos := byteLength_pos hne
      rw [hs.cursor_eq, hs'.cursor_eq]
      omega
    · have hrest : s.next.scanner.rest = [] := s.rest_of_isEof .next (List.mem_singleton.mpr rfl) heof
      have hsource : s.next.scanner.source = s.source := s.source_call .next
      rw [hs'.offset_eq hrest, hsource, hs.source_eq]
  · obtain ⟨h', hrun, hs', hkept⟩ := leads_scan s h hs
    have hcount := s.length_tokens_scan
    have hleft := hs.placed.length_rest_le
    refine ⟨_, _, h', hrun, hs'.safe, hkept, ?_, ?_⟩
    · rw [hs'.offset_eq s.rest_scan, s.source_scan, hs.source_eq]
    · rw [hs.source_eq]
      omega

end Head

/-- A head that answers calls on a source in any number and order, each a token or all tokens up to the end or a look at the
scanner, does not fail: it answers as a scanner does. Wherever it has come to, all that it has done since it began is safe (where
it put its cursor, what it marked and what it sliced), and so is every call that may come next, which makes progress. -/
theorem session_safe (source : String) (calls : List Call) : ∃ h : Head,
    (Head.session calls).run (Head.ofSource source) = some ((Scanner.ofSource source).session calls, h) ∧
      h.source = source ∧ h.Safe ∧ (Head.ofSource source).touches <:+ h.touches ∧ h.Progresses := by
  obtain ⟨h, hrun, hs, hkept⟩ := Head.leads_session (Scanner.ofSource source) calls _ (Head.shows_ofSource source)
  have hsource := hs.source_eq
  rw [Scanner.source_after, Scanner.source_ofSource] at hsource
  exact ⟨h, hrun, hsource, hs.safe, hkept, hs.progresses⟩

end MiniLex
