import MiniLex.Proofs.Lookahead

/-!
# The same step before another text

What a scan does up to the end of a lexeme it does before every text that shows nothing new behind the lexeme: the gap is the
same (`Grammar.Gap.of_head`), the lexeme is read again, and token and diagnostic are the same (`Scanner.Repeats`,
`Scanner.repeats_of_glimpse`). So two runs over texts that agree in this way can be followed side by side.
-/

namespace MiniLex

open Grammar

/-! ## Gaps -/

namespace Grammar

variable {piece gap rest rest' : List Char}

/-- A piece stays one before a text that begins as the one behind it does, or with a line break. -/
theorem Piece.of_head (h : Piece piece rest)
    (hr : ∀ c, rest'.head? = some c → rest.head? = some c ∨ c = '\r' ∨ c = '\n') : Piece piece rest' := by
  cases h with
  | blank hc => exact Piece.blank hc
  | lineComment hb hn =>
    refine Piece.lineComment hb (fun c hc => ?_)
    rcases hr c hc with h | h
    · exact hn c h
    · exact h
  | blockComment hb => exact Piece.blockComment hb

/-- A gap stays one before a text that begins as the one behind it does, or with a line break. -/
theorem Gap.of_head (h : Gap gap rest)
    (hr : ∀ c, rest'.head? = some c → rest.head? = some c ∨ c = '\r' ∨ c = '\n') : Gap gap rest' := by
  induction h with
  | nil => exact Gap.nil
  | @cons piece gap rest hp _ ih =>
    refine Gap.cons (hp.of_head ?_) (ih hr)
    cases gap with
    | nil => exact hr
    | cons c gap => exact fun d hd => Or.inl hd

theorem Gap.append {gap' : List Char} (h : Gap gap (gap' ++ rest)) (h' : Gap gap' rest) : Gap (gap ++ gap') rest := by
  generalize ht : gap' ++ rest = text at h
  induction h with
  | nil => exact h'
  | @cons piece gap _ hp _ ih =>
    subst ht
    rw [List.append_assoc]
    refine Gap.cons ?_ (ih rfl)
    rwa [List.append_assoc]

end Grammar

/-- A gap is put aside in front of what is put aside of the text behind it. -/
theorem Trivia.split_of_gap {gap rest : List Char} (h : Gap gap rest) :
    concat (split (gap ++ rest)).1 = gap ++ concat (split rest).1 ∧ (split (gap ++ rest)).2 = (split rest).2 := by
  induction h with
  | nil => exact ⟨rfl, rfl⟩
  | cons hp _ ih =>
    obtain ⟨t, rfl, hread⟩ := read?_of_piece hp
    rw [List.append_assoc, split_of_read? hread, List.append_assoc, ← ih.1]
    exact ⟨rfl, ih.2⟩

namespace Scanner

/-- In front of a gap and a text where nothing of the kind begins, a scanner goes past the gap and no further. -/
theorem gap_of_gap {s : Scanner} {gap rest : List Char} (hs : s.rest = gap ++ rest) (hg : Gap gap rest)
    (hn : ¬StartsBetween rest) : s.gap = gap ∧ s.skip.rest = rest := by
  obtain ⟨hgap, hrest⟩ := Trivia.split_of_gap hg
  rw [Trivia.split_of_not_startsBetween hn] at hgap hrest
  refine ⟨?_, ?_⟩
  · rw [Scanner.gap, hs, hgap]
    exact List.append_nil gap
  · rw [skip, hs]
    exact hrest

/-- Scanners that are in the same place behind the gap give the same. -/
theorem scan_congr {s t : Scanner} (h : s.skip = t.skip) : s.scan = t.scan := by
  cases hl : Lexeme.read? s.skip.rest with
  | none =>
    have he := (Lexeme.read?_eq_none_iff _).mp hl
    rw [scan_stop s he, scan_stop t (h ▸ he), h]
  | some found =>
    obtain ⟨l, rest⟩ := found
    rw [scan_step s l rest hl, scan_step t l rest (h ▸ hl), h]

/-- What is put aside in front of a text may as well be gone past before the text is looked at. -/
theorem skip_of_split {s : Scanner} {gap rest : List Char}
    (hgap : Trivia.concat (Trivia.split s.rest).1 = gap ++ Trivia.concat (Trivia.split rest).1)
    (hrest : (Trivia.split s.rest).2 = (Trivia.split rest).2) (hcut : Uncut gap rest) :
    s.skip = Scanner.skip ⟨s.source, rest, s.position.advance gap⟩ := by
  have hcut' : Uncut gap (Trivia.concat (Trivia.split rest).1) := by
    rintro ⟨hc, hd⟩
    refine hcut ⟨hc, ?_⟩
    rw [← Trivia.concat_append_split rest]
    simp [hd]
  simp only [skip, hgap, hrest, hcut'.advance_append]

/-- A scan gives what it would give from behind a gap that it begins with. -/
theorem scan_of_gap {s : Scanner} {gap rest : List Char} (hs : s.rest = gap ++ rest) (hg : Gap gap rest)
    (hcut : Uncut gap rest) : s.scan = Scanner.scan ⟨s.source, rest, s.position.advance gap⟩ := by
  obtain ⟨hgap, hrest⟩ := Trivia.split_of_gap hg
  rw [← hs] at hgap hrest
  exact scan_congr (skip_of_split hgap hrest hcut)

/-! ## One step -/

/-- A scanner repeats the step of another: it reads the same lexeme in the same place, before another text, and says the
same of it. -/
structure Repeats (s : Scanner) (l : Lexeme) (rest : List Char) (s' : Scanner) (rest' : List Char) : Prop where
  read : Lexeme.read? s'.skip.rest = some (l, rest')
  gap : s'.gap = s.gap
  position : s'.skip.position = s.skip.position
  token : (s'.skip.stepOver l rest').token = (s.skip.stepOver l rest).token
  diagnostic : (s'.skip.stepOver l rest').diagnostic = (s.skip.stepOver l rest).diagnostic

/-- Behind the lexeme the two stand in the same place. -/
theorem Repeats.behind {s s' : Scanner} {l : Lexeme} {rest rest' : List Char} (h : s.Repeats l rest s' rest') :
    (s'.skip.behind l rest').position = (s.skip.behind l rest).position :=
  congrArg (fun p => p.advance l.text) h.position

/-- A scanner in the same place repeats a step where nothing new shows behind the lexeme, unless that is a string literal
which is not closed; one that breaks off needs the same character behind it. -/
theorem repeats_of_glimpse {s s' : Scanner} {l : Lexeme} {rest rest' : List Char}
    (h : Lexeme.read? s.skip.rest = some (l, rest)) (hs : s'.rest = s.gap ++ (l.text ++ rest'))
    (hp : s'.position = s.position) (hg : glimpse rest' <+: rest)
    (hb : l.kind = .error .brokenString → rest'.head? = rest.head?) (he : l.kind ≠ .error .endlessString) :
    s.Repeats l rest s' rest' := by
  have hne := Lexeme.text_ne_nil_of_read? _ rest l h
  obtain ⟨hgap, hbetween⟩ := gap_skip h
  have hends := (Lexeme.endsBefore_of_read? h).of_glimpse hg hb he
  have hgap' : Gap s.gap (l.text ++ rest') := by
    refine hgap.of_head (fun c hc => Or.inl ?_)
    obtain ⟨d, ds, hd⟩ := List.exists_cons_of_ne_nil hne
    rw [hd] at hc ⊢
    exact hc
  obtain ⟨hsgap, hsrest⟩ := gap_of_gap hs hgap' (not_startsBetween_of_glimpse hg hne hbetween)
  have hposition : s'.skip.position = s.skip.position := by
    have hadvance : s'.skip.position = s'.position.advance s'.gap := rfl
    rw [hadvance, hsgap, hp]
    rfl
  refine ⟨?_, hsgap, hposition, ?_, ?_⟩
  · rw [hsrest]
    exact Lexeme.read?_of_endsBefore hends
  · simp only [stepOver, behind, hposition]
  · simp only [stepOver, behind, hposition]
    cases hk : l.kind.error? with
    | none => rfl
    | some e =>
      have hkind := (Kind.error?_eq_some_iff _ _).mp hk
      -- what is said of an error tells the texts behind it apart by their first character at most
      have hd : e.diagnose s.skip.position (s.skip.position.advance l.text) rest' =
          e.diagnose s.skip.position (s.skip.position.advance l.text) rest := by
        unfold LexError.diagnose
        split
        · next hshows =>
          have htake : rest'.take 1 = rest.take 1 := by
            cases e with
            | brokenString =>
              rw [List.take_one, List.take_one, hb hkind]
            | endlessString => exact absurd hkind he
            | _ => cases hshows
          rw [htake]
        · rfl
      rw [Option.map_some, Option.map_some, hd]

end Scanner

end MiniLex
