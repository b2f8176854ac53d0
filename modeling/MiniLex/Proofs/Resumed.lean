import MiniLex.Proofs.Errors

/-!
# Scans that go on

At each of its tokens a scan can be cut: a scanner of the same source stands where the token begins, it reads the token there,
and what comes behind the token is what a scan from its end gives, diagnostics included (`Scanner.scan_meets`). So whatever is
said about one token of a source, with the text in front of it and behind it, can be said about one step. A token can be named
by the text in front of which it begins as well (`Scanner.tokenize_meets_at`).
-/

namespace MiniLex

open Grammar

namespace Scanner

/-- A scan meets a token behind others and in front of others: a scanner of the same source stands where the token begins and
reads its lexeme, and a scan from the end of the token goes on with the tokens and the diagnostics behind. In front of the
diagnostic of the token stand as many as there are error tokens in front of it. -/
structure Meets (s : Scanner) (before : List Token) (t : Token) (after : List Token) (here : Scanner) (l : Lexeme)
    (rest : List Char) : Prop where
  source_eq : here.source = s.source
  stands : ∃ read, here.Stands read
  begins : ¬StartsBetween here.rest
  read_eq : Lexeme.read? here.rest = some (l, rest)
  token_eq : t = (here.stepOver l rest).token
  after_eq : after = (here.behind l rest).scan.tokens
  diagnostics_eq : ∃ front, front.length = before.countP Token.isError ∧
    s.scan.diagnostics = front ++ ((here.stepOver l rest).diagnostic.toList ++ (here.behind l rest).scan.diagnostics)

/-- A step reports as many diagnostics as its token is malformed. -/
theorem length_diagnostic_stepOver (s : Scanner) (l : Lexeme) (rest : List Char) :
    (s.stepOver l rest).diagnostic.toList.length = [(s.stepOver l rest).token].countP Token.isError := by
  cases he : l.kind.error? with
  | none =>
    rw [List.countP_singleton, if_neg (isError_of_none he)]
    simp only [stepOver, he, Option.map_none, Option.toList_none, List.length_nil]
  | some e =>
    rw [List.countP_singleton, if_pos (isError_of_some he)]
    simp only [stepOver, he, Option.map_some, Option.toList_some, List.length_singleton]

/-- A scan meets each of its tokens but the end of the text. -/
theorem scan_meets (s : Scanner) : ∀ read, s.Stands read → ∀ before t after, s.scan.tokens = before ++ t :: after →
    t.isEof = false → ∃ here l rest, s.Meets before t after here l rest := by
  induction s using scan_induction with
  | stop s hs =>
    intro read _ before t after htokens he
    have ht : t ∈ before ++ t :: after := List.mem_append_right before List.mem_cons_self
    rw [← htokens] at ht
    obtain rfl := List.mem_singleton.mp ht
    cases he
  | step s l rest hl ih =>
    intro read h before t after htokens he
    have hscan := s.scan_step l rest hl
    cases before with
    | nil =>
      obtain ⟨rfl, rfl⟩ := List.cons.inj htokens
      exact ⟨s.skip, l, rest, rfl, ⟨_, h.skip⟩, s.not_startsBetween_skip, hl, rfl, rfl, [], rfl, congrArg _ hscan⟩
    | cons first before =>
      obtain ⟨rfl, hrest⟩ := List.cons.inj htokens
      have hbehind := h.skip.behind s.not_startsBetween_skip hl
      obtain ⟨here, l', rest', hmeets⟩ := ih _ hbehind before t after hrest he
      obtain ⟨front, hlength, hdiagnostics⟩ := hmeets.diagnostics_eq
      refine ⟨here, l', rest', hmeets.source_eq, hmeets.stands, hmeets.begins, hmeets.read_eq, hmeets.token_eq,
        hmeets.after_eq, (s.skip.stepOver l rest).diagnostic.toList ++ front, ?_, ?_⟩
      · rw [List.length_append, length_diagnostic_stepOver, hlength, ← List.countP_append]
        rfl
      · rw [hscan, Scan.cons, hdiagnostics, List.append_assoc]

/-- The scan of a source meets each of its tokens but the end of the text. -/
theorem tokenize_meets {source : String} {before after : List Token} {t : Token}
    (h : (tokenize source).tokens = before ++ t :: after) (he : t.isEof = false) :
    ∃ here l rest, (ofSource source).Meets before t after here l rest :=
  (ofSource source).scan_meets [] (stands_ofSource source) before t after h he

theorem isEof_of_start {source : String} {t : Token} (ht : t ∈ (tokenize source).tokens) {front behind : List Char}
    (hsource : source.toList = front ++ behind) (hbehind : behind ≠ []) (hstart : t.span.start = byteLength front) :
    t.isEof = false := by
  obtain ⟨body, last, htokens, hbody, -, -, hspan⟩ := (tiles_tokenize source).ends
  rw [htokens] at ht
  rcases List.mem_append.mp ht with ht | ht
  · exact (hbody t ht).1
  · obtain rfl := List.mem_singleton.mp ht
    have hend : t.span.start = byteLength (markOf source) + byteLength (textOf source) := congrArg Span.start hspan
    rw [← byteLength_append, markOf_append_textOf, hsource, byteLength_append, hstart] at hend
    have hpos := byteLength_pos hbehind
    omega

/-- The scan of a source meets the token that begins in front of some text where a scanner has that text left to read. -/
theorem tokenize_meets_at {source : String} {before after : List Token} {t : Token}
    (h : (tokenize source).tokens = before ++ t :: after) {front behind : List Char}
    (hsource : source.toList = front ++ behind) (hbehind : behind ≠ []) (hstart : t.span.start = byteLength front) :
    ∃ here l rest, (ofSource source).Meets before t after here l rest ∧ here.rest = behind := by
  have ht : t ∈ (tokenize source).tokens := by
    rw [h]
    exact List.mem_append_right before List.mem_cons_self
  obtain ⟨here, l, rest, hmeets⟩ := tokenize_meets h (isEof_of_start ht hsource hbehind hstart)
  refine ⟨here, l, rest, hmeets, ?_⟩
  obtain ⟨read, hstands⟩ := hmeets.stands
  have hparts := hstands.parts (List.nil_append here.rest)
  have hsame : here.source = source := hmeets.source_eq.trans (source_ofSource source)
  rw [hsame] at hparts
  have hoffset : t.span.start = here.position.offset := congrArg (fun t : Token => t.span.start) hmeets.token_eq
  have hfront : byteLength (markOf source ++ read) = byteLength front := by
    rw [← hparts.2.1, ← hoffset, hstart]
  exact (append_inj_of_byteLength (hparts.1.symm.trans hsource) hfront).2

end Scanner

end MiniLex
