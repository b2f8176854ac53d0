import Mathlib.Data.String.Basic
import MiniLex.Proofs.Scan

/-!
# Tiling

The tokens of a source lie side by side in it, and only gaps of the grammar lie between them (`tokenize_tiles`). The
statement is about byte offsets and about what stands in the source between two of them (`Span.slice`). It follows from one
about texts (`Tiles`), in which every token comes with the gap in front of it and with the text behind it: that is what one
step of a scan gives, and so all of them (`tiles_scan`).
-/

namespace MiniLex

open Grammar

/-! ## Stretches of a source -/

namespace Span

/-- What stands in a source at a span. -/
def slice (s : Span) (source : String) : String := String.Pos.Raw.extract source ⟨s.start⟩ ⟨s.stop⟩

/-- A span lies in a source, and both its ends lie between characters. -/
def Fits (s : Span) (source : String) : Prop :=
  s.start ≤ s.stop ∧ s.stop ≤ source.utf8ByteSize ∧ (String.Pos.Raw.mk s.start).IsValid source ∧
    (String.Pos.Raw.mk s.stop).IsValid source

/-- A span parts a source into what is in front of it, what it covers and what is behind it. -/
def Parts (s : Span) (source : String) (pre text rest : List Char) : Prop :=
  source.toList = pre ++ (text ++ rest) ∧ s.start = byteLength pre ∧ s.stop = byteLength pre + byteLength text

/-- A span covers a text that stands in a source in front of another. -/
def Covers (s : Span) (source : String) (text rest : List Char) : Prop := ∃ pre, s.Parts source pre text rest

theorem byteLength_eq_utf8Len (cs : List Char) : byteLength cs = String.utf8Len cs := by
  induction cs with
  | nil => rfl
  | cons c cs ih => rw [byteLength, String.utf8Len_cons, ih, Nat.add_comm]

/-- What a span covers is what stands there. -/
theorem Covers.slice_eq {s : Span} {source : String} {text rest : List Char} (h : s.Covers source text rest) :
    s.slice source = String.ofList text := by
  obtain ⟨pre, hs, ha, ho⟩ := h
  have hx := String.extract_of_valid pre text rest
  rw [List.append_assoc, ← hs, String.ofList_toList] at hx
  rw [slice, ha, ho, byteLength_eq_utf8Len, byteLength_eq_utf8Len, hx]

/-- The end of a text in a source lies between characters. -/
theorem isValid_of_append {source : String} {pre post : List Char} (h : source.toList = pre ++ post) :
    (String.Pos.Raw.mk (byteLength pre)).IsValid source := by
  rw [String.Pos.Raw.isValid_iff_exists_append]
  refine ⟨String.ofList pre, String.ofList post, ?_, ?_⟩
  · rw [← String.ofList_append, ← h, String.ofList_toList]
  · rw [String.rawEndPos_ofList, byteLength_eq_utf8Len]

/-- A span that covers something lies in the source. -/
theorem Covers.fits {s : Span} {source : String} {text rest : List Char} (h : s.Covers source text rest) :
    s.Fits source := by
  obtain ⟨pre, hs, ha, ho⟩ := h
  have hb := byteLength_toList source
  rw [hs, byteLength_append, byteLength_append] at hb
  refine ⟨by omega, by omega, ?_, ?_⟩
  · rw [ha]
    exact isValid_of_append hs
  · rw [ho, ← byteLength_append]
    rw [← List.append_assoc] at hs
    exact isValid_of_append hs

end Span

/-! ## Tiles -/

/-- Tokens tile a text that begins at an offset: each stands behind a gap and is neither empty nor the end of the text, and
the last one is, behind the last gap. -/
inductive Tiles : Nat → List Char → List Token → Prop where
  | stop {offset : Nat} {gap : List Char} {t : Token} : LastGap gap → t.isEof = true → t.lexeme = "" →
      t.span = .point (offset + byteLength gap) → Tiles offset gap [t]
  | token {offset : Nat} {gap text rest : List Char} {t : Token} {ts : List Token} : Gap gap (text ++ rest) →
      t.isEof = false → text ≠ [] → t.lexeme = String.ofList text →
      t.span = ⟨offset + byteLength gap, offset + byteLength gap + byteLength text⟩ → Tiles t.span.stop rest ts →
      Tiles offset (gap ++ (text ++ rest)) (t :: ts)

/-- The tokens of a scan tile the text that was left. -/
theorem tiles_scan (s : Scanner) : Tiles s.position.offset s.rest s.scan.tokens := by
  induction s using Scanner.scan_induction with
  | stop s h =>
    obtain ⟨hgap, hlast⟩ := Scanner.lastGap_skip h
    refine Tiles.stop hlast rfl rfl ?_
    rw [← hgap]
    exact congrArg Span.point s.offset_skip
  | step s l rest h ih =>
    have hg := (Scanner.gap_skip h).1
    have ho := s.offset_skip
    have hb := s.skip.offset_behind l rest
    rw [← Scanner.gap_append_text h]
    have hk := Lexeme.isEof_of_read? s.skip.rest rest l h
    refine Tiles.token (t := (s.skip.stepOver l rest).token) hg hk (Lexeme.text_ne_nil_of_read? _ rest l h) rfl ?_ ih
    rw [← ho, ← hb]
    rfl

/-- The tokens of a source tile its text. -/
theorem tiles_tokenize (source : String) : Tiles (byteLength (markOf source)) (textOf source) (tokenize source).tokens := by
  rw [tokenize, ofSource_eq]
  exact tiles_scan ⟨source, textOf source, ⟨byteLength (markOf source), 1, 1⟩⟩

/-! ## What tiles are in a source -/

/-- Where the last of some tokens ends, or the offset that they begin at if there are none. -/
def endOf : Nat → List Token → Nat
  | offset, [] => offset
  | _, t :: ts => endOf t.span.stop ts

/-- What stands in a source in front of each of some tokens, behind the one before it or behind an offset. -/
def gapsFrom (source : String) : Nat → List Token → List String
  | _, [] => []
  | offset, t :: ts => (Span.mk offset t.span.start).slice source :: gapsFrom source t.span.stop ts

namespace Tiles

variable {offset : Nat} {cs : List Char} {tokens : List Token}

theorem offset_le (h : Tiles offset cs tokens) : ∀ t ∈ tokens, offset ≤ t.span.start := by
  induction h with
  | @stop offset gap t _ _ _ hspan =>
    intro t' ht'
    obtain rfl := List.mem_singleton.mp ht'
    rw [hspan]
    exact Nat.le_add_right _ _
  | @token offset gap text rest t ts _ _ _ _ hspan _ ih =>
    intro t' ht'
    rcases List.mem_cons.mp ht' with rfl | ht'
    · rw [hspan]
      exact Nat.le_add_right _ _
    · have hle := ih t' ht'
      rw [hspan] at hle
      exact Nat.le_trans (Nat.le_trans (Nat.le_add_right _ _) (Nat.le_add_right _ _)) hle

theorem start_le_stop (h : Tiles offset cs tokens) : ∀ t ∈ tokens, t.span.start ≤ t.span.stop := by
  induction h with
  | @stop offset gap t _ _ _ hspan =>
    intro t' ht'
    obtain rfl := List.mem_singleton.mp ht'
    rw [hspan]
    exact Nat.le_refl _
  | @token offset gap text rest t ts _ _ _ _ hspan _ ih =>
    intro t' ht'
    rcases List.mem_cons.mp ht' with rfl | ht'
    · rw [hspan]
      exact Nat.le_add_right _ _
    · exact ih t' ht'

/-- Where tiles stand in a source, the span of each covers its lexeme. -/
theorem covers (h : Tiles offset cs tokens) {source : String} {pre : List Char} (hs : source.toList = pre ++ cs)
    (ho : offset = byteLength pre) : ∀ t ∈ tokens, ∃ rest, t.span.Covers source t.lexeme.toList rest := by
  induction h generalizing pre with
  | @stop offset gap t _ _ hl hspan =>
    intro t' ht'
    obtain rfl := List.mem_singleton.mp ht'
    refine ⟨[], pre ++ gap, by simp [hs, hl], ?_, ?_⟩
    · simp [hspan, Span.point, byteLength_append, ho]
    · simp [hspan, Span.point, byteLength_append, ho, hl, byteLength]
  | @token offset gap text rest t ts _ _ _ hl hspan _ ih =>
    intro t' ht'
    rcases List.mem_cons.mp ht' with rfl | ht'
    · refine ⟨rest, pre ++ gap, by simp [hs, hl], ?_, ?_⟩
      · simp [hspan, byteLength_append, ho]
      · simp [hspan, byteLength_append, ho, hl]
    · have hs' : source.toList = (pre ++ gap ++ text) ++ rest := by simp [hs]
      refine ih hs' ?_ t' ht'
      simp only [hspan, byteLength_append, ho]

/-- Tiles lie in order and side by side. -/
theorem ordered (h : Tiles offset cs tokens) :
    tokens.Pairwise (fun a b => a.span.start < b.span.start ∧ a.span.stop ≤ b.span.start) := by
  induction h with
  | stop => exact List.pairwise_singleton _ _
  | @token offset gap text rest t ts _ _ hne _ hspan htail ih =>
    refine List.pairwise_cons.mpr ⟨fun b hb => ?_, ih⟩
    have hle := offset_le htail b hb
    have hpos := byteLength_pos hne
    simp only [hspan] at hle ⊢
    omega

/-- Only the last of some tiles is the end of the text. -/
theorem ends (h : Tiles offset cs tokens) : ∃ body last, tokens = body ++ [last] ∧
    (∀ t ∈ body, t.isEof = false ∧ t.lexeme ≠ "") ∧ last.isEof = true ∧ last.lexeme = "" ∧
    last.span = .point (offset + byteLength cs) := by
  induction h with
  | @stop offset gap t _ he hl hspan => exact ⟨[], t, rfl, by simp, he, hl, hspan⟩
  | @token offset gap text rest t ts _ he hne hl hspan _ ih =>
    obtain ⟨body, last, rfl, hb, hrest, hlast, hp⟩ := ih
    refine ⟨t :: body, last, rfl, ?_, hrest, hlast, ?_⟩
    · intro t' ht'
      rcases List.mem_cons.mp ht' with rfl | ht'
      · refine ⟨he, ?_⟩
        rw [hl, ne_eq, ofList_eq_iff]
        simpa using hne
      · exact hb t' ht'
    · rw [hp, hspan]
      simp only [byteLength_append, Nat.add_assoc]

/-- In front of each tile, behind the one before it, stands a gap. -/
theorem gaps (h : Tiles offset cs tokens) : ∀ before t after, tokens = before ++ t :: after →
    ∃ pre gap rest, cs = pre ++ (gap ++ rest) ∧ endOf offset before = offset + byteLength pre ∧
      t.span.start = offset + byteLength pre + byteLength gap ∧ (t.isEof = false → Gap gap rest) ∧
      (t.isEof = true → LastGap gap) := by
  induction h with
  | @stop offset gap t hg he _ hspan =>
    intro before t' after ht
    obtain ⟨rfl, rfl, rfl⟩ : before = [] ∧ t = t' ∧ after = [] := by
      cases before with
      | nil => simpa using ht
      | cons b before => simp at ht
    exact ⟨[], gap, [], by simp, rfl, by rw [hspan]; rfl, by simp [he], fun _ => hg⟩
  | @token offset gap text rest t ts hg he _ _ hspan _ ih =>
    intro before t' after ht
    cases before with
    | nil =>
      obtain ⟨rfl, rfl⟩ := List.cons.inj ht
      exact ⟨[], gap, text ++ rest, rfl, rfl, by rw [hspan]; rfl, fun _ => hg, by simp [he]⟩
    | cons b before =>
      obtain ⟨rfl, rfl⟩ := List.cons.inj ht
      obtain ⟨pre, gap', rest', rfl, hend, hstart, hgap, hlast⟩ := ih before t' after rfl
      refine ⟨gap ++ (text ++ pre), gap', rest', by simp, ?_, ?_, hgap, hlast⟩
      · rw [endOf, hend, hspan]
        simp only [byteLength_append, Nat.add_assoc]
      · rw [hstart, hspan]
        simp only [byteLength_append, Nat.add_assoc]

/-- Where tiles stand in a source, gaps and lexemes make up the text. -/
theorem rebuilt (h : Tiles offset cs tokens) {source : String} {pre : List Char} (hs : source.toList = pre ++ cs)
    (ho : offset = byteLength pre) :
    String.join (List.zipWith (· ++ ·) (gapsFrom source offset tokens) (tokens.map (·.lexeme))) = String.ofList cs := by
  induction h generalizing pre with
  | @stop offset gap t _ _ hl hspan =>
    have hc : (Span.mk offset t.span.start).Covers source gap [] :=
      ⟨pre, by simpa using hs, ho, by simp [hspan, Span.point, ho]⟩
    simp [gapsFrom, hc.slice_eq, hl]
  | @token offset gap text rest t ts _ _ _ hl hspan _ ih =>
    have hc : (Span.mk offset t.span.start).Covers source gap (text ++ rest) :=
      ⟨pre, hs, ho, by simp [hspan, ho]⟩
    have hs' : source.toList = (pre ++ gap ++ text) ++ rest := by simp [hs]
    have hi := ih hs' (by simp only [hspan, byteLength_append, ho])
    simp only [gapsFrom, List.map_cons, List.zipWith_cons_cons, String.join_cons, hi, hc.slice_eq, hl, String.ofList_append,
      String.append_assoc]

end Tiles

/-- Tokens tile a source: they lie in it between characters, in order and side by side, and are what stands there. None but
the last is empty or the end of the text, and the last is both, at the end of the source. In front of each, behind the mark
or the token before it, stands a gap of the grammar. Mark, gaps and lexemes make up the source. -/
structure Tiling (source : String) (tokens : List Token) : Prop where
  fits : ∀ t ∈ tokens, t.span.Fits source
  lexeme_eq : ∀ t ∈ tokens, t.lexeme = t.span.slice source
  ordered : tokens.Pairwise (fun a b => a.span.start < b.span.start ∧ a.span.stop ≤ b.span.start)
  ends : ∃ body last, tokens = body ++ [last] ∧ (∀ t ∈ body, t.isEof = false ∧ t.lexeme ≠ "") ∧ last.isEof = true ∧
    last.lexeme = "" ∧ last.span = .point source.utf8ByteSize
  gaps : ∀ before t after, tokens = before ++ t :: after →
    let offset := endOf (byteLength (markOf source)) before
    let gap := ((Span.mk offset t.span.start).slice source).toList
    offset ≤ t.span.start ∧
      (t.isEof = false → Gap gap ((Span.mk t.span.start source.utf8ByteSize).slice source).toList) ∧
      (t.isEof = true → LastGap gap)
  rebuilt : source = String.ofList (markOf source) ++ String.join
    (List.zipWith (· ++ ·) (gapsFrom source (byteLength (markOf source)) tokens) (tokens.map (·.lexeme)))

/-- The tokens of a source tile it. -/
theorem tokenize_tiles (source : String) : Tiling source (tokenize source).tokens := by
  have hs := (markOf_append_textOf source).symm
  have h := tiles_tokenize source
  have hb : source.utf8ByteSize = byteLength (markOf source) + byteLength (textOf source) := by
    rw [← byteLength_toList, hs, byteLength_append]
  refine ⟨fun t ht => ?_, fun t ht => ?_, h.ordered, ?_, fun before t after ht => ?_, ?_⟩
  · obtain ⟨rest, hc⟩ := h.covers hs rfl t ht
    exact hc.fits
  · obtain ⟨rest, hc⟩ := h.covers hs rfl t ht
    rw [hc.slice_eq, String.ofList_toList]
  · rw [hb]
    exact h.ends
  · obtain ⟨pre, gap, rest, he, hend, hstart, hgap, hlast⟩ := h.gaps before t after ht
    rw [he] at hs hb
    simp only [byteLength_append] at hb
    have hc : (Span.mk (endOf (byteLength (markOf source)) before) t.span.start).Covers source gap rest :=
      ⟨markOf source ++ pre, by simp [hs], by rw [hend, byteLength_append], by rw [hstart, byteLength_append]⟩
    have hr : (Span.mk t.span.start source.utf8ByteSize).Covers source rest [] := by
      refine ⟨markOf source ++ (pre ++ gap), by simp [hs], ?_, ?_⟩
      · rw [hstart]
        simp only [byteLength_append, Nat.add_assoc]
      · rw [hb]
        simp only [byteLength_append, Nat.add_assoc]
    refine ⟨?_, fun ht => ?_, fun ht => ?_⟩
    · rw [hend, hstart]
      exact Nat.le_add_right _ _
    · rw [hc.slice_eq, hr.slice_eq, String.toList_ofList, String.toList_ofList]
      exact hgap ht
    · rw [hc.slice_eq, String.toList_ofList]
      exact hlast ht
  · rw [h.rebuilt hs rfl, ← String.ofList_append, ← hs, String.ofList_toList]

end MiniLex
