import MiniLex.Proofs.Seam
import MiniLex.Proofs.Tiling

/-!
# Lines and columns

The line and the column of a token and of a diagnostic are the ones that counting gives for the offset where it begins, the
mark of the source left out. A scan keeps them up to date as it goes on; what makes the two agree is that it only ever stops
where no line break is cut in two (`Reached`). A scan counts in 32 bits, so it gives the numbers themselves where all lines and
columns of the source have one (`CountsFit`), and what is left of them otherwise (`tokenize_located`).
-/

namespace MiniLex

/-- The line and the column of an offset in a source, by counting behind the mark. -/
def placeOf (source : String) (offset : Nat) : Nat × Nat :=
  let behind := offset - byteLength (markOf source)
  (lineAt (textOf source) behind, columnAt (textOf source) behind)

/-- The line and the column of an offset in a source, as numbers of 32 bits. -/
def countedPlaceOf (source : String) (offset : Nat) : UInt32 × UInt32 :=
  (.ofNat (placeOf source offset).1, .ofNat (placeOf source offset).2)

theorem lineBreaks_toList (source : String) : lineBreaks source.toList = lineBreaks (textOf source) := by
  rw [← markOf_append_textOf]
  unfold markOf
  split
  · exact lineBreaks_cons_of_unbroken rfl _
  · rfl

theorem length_textOf_le (source : String) : (textOf source).length ≤ source.length := by
  rw [← String.length_toList, ← markOf_append_textOf, List.length_append]
  exact Nat.le_add_left _ _

/-- All lines and columns of a source are numbers of 32 bits. -/
structure CountsFit (source : String) : Prop where
  line_lt : ∀ offset, (placeOf source offset).1 < UInt32.size
  column_lt : ∀ offset, (placeOf source offset).2 < UInt32.size

/-- A source that is not longer than numbers of 32 bits go has its lines and columns among them. -/
theorem countsFit_of_length {source : String} (h : source.length + 1 < UInt32.size) : CountsFit source := by
  have hlength := length_textOf_le source
  refine ⟨fun offset => ?_, fun offset => ?_⟩
  · have hline := lineAt_le (textOf source) (offset - byteLength (markOf source))
    have hbreaks := lineBreaks_le_length (textOf source)
    simp only [placeOf]
    omega
  · have hcolumn := columnAt_le (textOf source) (offset - byteLength (markOf source))
    simp only [placeOf]
    omega

/-- Where all lines and columns are numbers of 32 bits, nothing is lost. -/
theorem CountsFit.toNat_countedPlaceOf {source : String} (h : CountsFit source) (offset : Nat) :
    ((countedPlaceOf source offset).1.toNat, (countedPlaceOf source offset).2.toNat) = placeOf source offset := by
  rw [countedPlaceOf, UInt32.toNat_ofNat_of_lt' (h.line_lt offset), UInt32.toNat_ofNat_of_lt' (h.column_lt offset)]

/-- An offset lies between a carriage return and the line feed behind it. -/
def InsideBreak (source : String) (offset : Nat) : Prop :=
  ∃ pre post, source.toList = pre ++ '\r' :: '\n' :: post ∧ offset = byteLength pre + 1

/-- The place where a token begins. -/
def Token.place (t : Token) : Position := ⟨t.span.start, t.line, t.column⟩

/-- The place where a diagnostic begins. -/
def Diagnostic.place (d : Diagnostic) : Position := ⟨d.span.start, d.line, d.column⟩

/-- A place of a source that comes behind some of its text, with nothing cut in two there. -/
def Reached (source : String) (p : Position) : Prop :=
  ∃ read rest, textOf source = read ++ rest ∧ Seam read rest ∧ p = (beginning source).advance read

/-! ## What holds of a place that is reached -/

namespace Reached

variable {source : String} {p q : Position}

/-- A place that is reached is that of a character, by counting. -/
theorem eq_placeAt (h : Reached source p) :
    ∃ n ≤ (textOf source).length, p = placeAt (byteLength (markOf source)) (textOf source) n := by
  obtain ⟨read, rest, ht, hseam, rfl⟩ := h
  refine ⟨read.length, by simp [ht], ?_⟩
  have hz : beginning source = placeAt (byteLength (markOf source)) ([] ++ (read ++ rest)) ([] : List Char).length :=
    (placeAt_zero _ _).symm
  rw [advance_placeAt _ hz hseam.uncut, ht]
  simp

/-- A place that is reached has the line and the column of its offset. -/
theorem line_column (h : Reached source p) : (p.line, p.column) = countedPlaceOf source p.offset := by
  obtain ⟨n, _, rfl⟩ := h.eq_placeAt
  simp only [placeAt, countedPlaceOf, placeOf, Nat.add_sub_cancel_left]

/-- A place that is reached does not lie inside a line break. -/
theorem not_insideBreak (h : Reached source p) : ¬InsideBreak source p.offset := by
  obtain ⟨read, rest, ht, hseam, rfl⟩ := h
  rintro ⟨pre, post, hs, ho⟩
  have hsplit : (pre ++ ['\r']) ++ '\n' :: post = (markOf source ++ read) ++ rest := by
    rw [List.append_assoc (markOf source), ← ht, markOf_append_textOf, hs]
    simp
  have hlen : byteLength (pre ++ ['\r']) = byteLength (markOf source ++ read) := by
    rw [offset_advance] at ho
    rw [byteLength_append, byteLength_append]
    exact ho.symm
  obtain ⟨hread, hrest⟩ := append_inj_of_byteLength hsplit hlen
  have hlast : (markOf source ++ read).getLast? = some '\r' := by rw [← hread, List.getLast?_concat]
  by_cases hn : read = []
  · rw [hn, List.append_nil, markOf] at hlast
    split at hlast
    · exact absurd hlast (by decide)
    · exact absurd hlast (by decide)
  · rw [List.getLast?_append_of_ne_nil _ hn] at hlast
    exact hseam.uncut ⟨hlast, by rw [← hrest]; rfl⟩

/-- Of two places the one that comes first in the source is the earlier one. -/
theorem before (hp : Reached source p) (hq : Reached source q) (h : p.offset < q.offset) :
    Before (placeOf source p.offset) (placeOf source q.offset) := by
  obtain ⟨n, hn, rfl⟩ := hp.eq_placeAt
  obtain ⟨m, hm, rfl⟩ := hq.eq_placeAt
  simp only [placeAt, placeOf, Nat.add_sub_cancel_left] at h ⊢
  refine line_column_before ?_ hm
  by_contra hle
  have := (offsetOf_le_iff hm hn).mpr (Nat.le_of_not_lt hle)
  omega

end Reached

/-! ## What a scan reaches -/

/-- Where a scanner stands is reached. -/
theorem Scanner.Stands.reached {s : Scanner} {read : List Char} (h : s.Stands read) : Reached s.source s.position :=
  ⟨read, s.rest, h.text, h.seam, h.position⟩

/-- A scan begins its tokens and its diagnostics where it has come to. -/
theorem reached_scan (s : Scanner) : ∀ read, s.Stands read → (∀ t ∈ s.scan.tokens, Reached s.source t.place) ∧
    ∀ d ∈ s.scan.diagnostics, Reached s.source d.place := by
  induction s using Scanner.scan_induction with
  | stop s _ =>
    intro read h
    refine ⟨fun t ht => ?_, fun d hd => absurd hd (List.not_mem_nil)⟩
    obtain rfl := List.mem_singleton.mp ht
    exact h.skip.reached
  | step s l rest hl ih =>
    intro read h
    have hbehind := h.skip.behind s.not_startsBetween_skip hl
    obtain ⟨htokens, hdiagnostics⟩ := ih _ hbehind
    refine ⟨fun t ht => ?_, fun d hd => ?_⟩
    · rcases List.mem_cons.mp ht with rfl | ht
      · exact h.skip.reached
      · exact htokens t ht
    · rcases List.mem_append.mp hd with hd | hd
      · obtain ⟨e, _, rfl⟩ := Option.map_eq_some_iff.mp (Option.mem_toList.mp hd)
        -- a diagnostic stands where its token begins, or where it ends
        unfold LexError.diagnose
        split
        · exact hbehind.reached
        · exact h.skip.reached
      · exact hdiagnostics d hd

/-- Tokens and diagnostics are located in a source: lines and columns are what counting gives, nothing begins inside a line
break, and the places of the tokens come one behind the other. -/
structure Located (source : String) (tokens : List Token) (diagnostics : List Diagnostic) : Prop where
  tokens_at : ∀ t ∈ tokens, (t.line, t.column) = countedPlaceOf source t.span.start
  diagnostics_at : ∀ d ∈ diagnostics, (d.line, d.column) = countedPlaceOf source d.span.start
  tokens_uncut : ∀ t ∈ tokens, ¬InsideBreak source t.span.start
  diagnostics_uncut : ∀ d ∈ diagnostics, ¬InsideBreak source d.span.start
  ordered : tokens.Pairwise (fun a b => Before (placeOf source a.span.start) (placeOf source b.span.start))

/-- The numbers that tokens and diagnostics have for their lines and columns are the ones that counting gives, and those of the
tokens go up. -/
structure Numbered (source : String) (tokens : List Token) (diagnostics : List Diagnostic) : Prop where
  tokens_at : ∀ t ∈ tokens, (t.line.toNat, t.column.toNat) = placeOf source t.span.start
  diagnostics_at : ∀ d ∈ diagnostics, (d.line.toNat, d.column.toNat) = placeOf source d.span.start
  ordered : tokens.Pairwise (fun a b => a.line < b.line ∨ a.line = b.line ∧ a.column < b.column)

namespace Located

variable {source : String} {tokens : List Token} {diagnostics : List Diagnostic}

/-- What is located in a source has the numbers of its places where all of them are numbers of 32 bits. -/
theorem numbered (h : Located source tokens diagnostics) (hfit : CountsFit source) : Numbered source tokens diagnostics := by
  have htokens : ∀ t ∈ tokens, (t.line.toNat, t.column.toNat) = placeOf source t.span.start := by
    intro t ht
    rw [← hfit.toNat_countedPlaceOf, ← h.tokens_at t ht]
  refine ⟨htokens, fun d hd => ?_, h.ordered.imp_of_mem (fun {a b} ha hb hlt => ?_)⟩
  · rw [← hfit.toNat_countedPlaceOf, ← h.diagnostics_at d hd]
  · rw [← htokens a ha, ← htokens b hb] at hlt
    rw [UInt32.lt_iff_toNat_lt, UInt32.lt_iff_toNat_lt, ← UInt32.toNat_inj]
    exact hlt

end Located

/-- The tokens and the diagnostics of a source are located in it. Where all lines and columns of the source are numbers of 32
bits, they have these numbers, and those of the tokens go up. -/
theorem tokenize_located (source : String) :
    Located source (tokenize source).tokens (tokenize source).diagnostics ∧
      (CountsFit source → Numbered source (tokenize source).tokens (tokenize source).diagnostics) := by
  have hlocated : Located source (tokenize source).tokens (tokenize source).diagnostics := by
    obtain ⟨htokens, hdiagnostics⟩ := reached_scan _ _ (Scanner.stands_ofSource source)
    rw [Scanner.source_ofSource] at htokens hdiagnostics
    refine ⟨fun t ht => (htokens t ht).line_column, fun d hd => (hdiagnostics d hd).line_column,
      fun t ht => (htokens t ht).not_insideBreak, fun d hd => (hdiagnostics d hd).not_insideBreak, ?_⟩
    refine (tiles_tokenize source).ordered.imp_of_mem (fun {a b} ha hb hlt => ?_)
    have hbefore := (htokens a ha).before (htokens b hb) hlt.1
    exact hbefore
  exact ⟨hlocated, hlocated.numbered⟩

/-- Behind the mark, with all three line ends and one inside of a string literal. -/
theorem tokenize_located_lineEnds :
    let source := "\uFEFF\"a\\\r\n\" é\r@\n"
    CountsFit source ∧ Numbered source (tokenize source).tokens (tokenize source).diagnostics ∧
      (tokenize source).diagnostics = [⟨.unexpectedCharacter '@', 3, 1, ⟨13, 14⟩⟩] := by
  intro source
  have hfit : CountsFit source := countsFit_of_length (by decide +kernel)
  have hdiagnostics : (tokenize source).diagnostics = [⟨.unexpectedCharacter '@', 3, 1, ⟨13, 14⟩⟩] := by decide +kernel
  exact ⟨hfit, (tokenize_located source).2 hfit, hdiagnostics⟩

end MiniLex
