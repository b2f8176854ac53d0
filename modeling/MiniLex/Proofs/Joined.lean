import MiniLex.Proofs.Located
import MiniLex.Proofs.Transfer

/-!
# Texts joined by a line feed

A scan carries nothing across a line break but its place. Behind a line feed it goes on as a scan of its own would, so many
bytes and lines further on (`scan_shift`), and in front of it nothing shows of what comes behind (`Scanner.scan_joined`). So
the tokens and the diagnostics of two texts with a line feed between them are those of the first and those of the second
(`tokenize_joined`), unless the first breaks off in a string literal or in a block comment. Lines go on by as many as the first
text has, in 32 bits as they are counted, and as numbers where the two texts together have fewer lines than there are numbers.
-/

namespace MiniLex

open Grammar

/-! ## Further on -/

/-- The place so many bytes and lines further on, in the same column. -/
def Position.shift (p : Position) (bytes lines : Nat) : Position := ⟨p.offset + bytes, p.line + .ofNat lines, p.column⟩

/-- The span so many bytes further on. -/
def Span.shift (s : Span) (bytes : Nat) : Span := ⟨s.start + bytes, s.stop + bytes⟩

/-- A token so many bytes and lines further on. -/
def Token.shift (t : Token) (bytes lines : Nat) : Token :=
  ⟨t.kind, t.lexeme, t.line + .ofNat lines, t.column, t.span.shift bytes, t.value⟩

/-- A diagnostic so many bytes and lines further on. -/
def Diagnostic.shift (d : Diagnostic) (bytes lines : Nat) : Diagnostic :=
  ⟨d.error, d.line + .ofNat lines, d.column, d.span.shift bytes⟩

section Shift

variable (bytes lines : Nat)

theorem nextLine_shift (p : Position) (n : Nat) : (p.shift bytes lines).nextLine n = (p.nextLine n).shift bytes lines := by
  have hline : p.line + .ofNat lines + 1 = p.line + 1 + .ofNat lines := by
    rw [UInt32.add_assoc, UInt32.add_comm (.ofNat lines), ← UInt32.add_assoc]
  simp only [Position.nextLine, Position.shift, Nat.add_right_comm, hline]

/-- A text takes a place that is further on as far as the place itself. -/
theorem advance_shift (p : Position) (cs : List Char) :
    (p.shift bytes lines).advance cs = (p.advance cs).shift bytes lines := by
  fun_induction Position.advance p cs with
  | case1 => rfl
  | case2 p cs ih => rw [Position.advance, nextLine_shift, ih]
  | case3 p c cs hn hb ih => rw [Position.advance.eq_3 _ _ _ hn, if_pos hb, nextLine_shift, ih]
  | case4 p c cs hn hb ih =>
    have hright : (p.shift bytes lines).right c = (p.right c).shift bytes lines := by
      simp only [Position.right, Position.shift, Nat.add_right_comm]
    rw [Position.advance.eq_3 _ _ _ hn, if_neg hb, hright, ih]

theorem diagnose_shift (e : LexError) (start stop : Position) (rest : List Char) :
    e.diagnose (start.shift bytes lines) (stop.shift bytes lines) rest = (e.diagnose start stop rest).shift bytes lines := by
  unfold LexError.diagnose
  split
  · simp only [Diagnostic.shift, Span.shift, Position.shift, Nat.add_right_comm]
  · rfl

namespace Scanner

/-- A scanner that has the same text to read, further on, goes past the same gap. -/
theorem skip_shift {s s' : Scanner} (hr : s'.rest = s.rest) (hp : s'.position = s.position.shift bytes lines) :
    s'.skip.rest = s.skip.rest ∧ s'.skip.position = s.skip.position.shift bytes lines := by
  refine ⟨?_, ?_⟩
  · simp only [skip, hr]
  · simp only [skip, hr, hp, advance_shift]

/-- A scanner that has the same text to read, further on, reads a lexeme as the same token and says the same of it. -/
theorem stepOver_shift {s s' : Scanner} (hp : s'.position = s.position.shift bytes lines) (l : Lexeme) (rest : List Char) :
    (s'.stepOver l rest).token = (s.stepOver l rest).token.shift bytes lines ∧
      (s'.stepOver l rest).diagnostic = (s.stepOver l rest).diagnostic.map (fun d => d.shift bytes lines) ∧
      (s'.behind l rest).position = (s.behind l rest).position.shift bytes lines := by
  have hbehind : (s'.behind l rest).position = (s.behind l rest).position.shift bytes lines := by
    simp only [behind, hp, advance_shift]
  refine ⟨?_, ?_, hbehind⟩
  · simp only [stepOver, hbehind, hp]
    rfl
  · simp only [stepOver, hbehind, hp, Option.map_map]
    exact congrArg (fun f => l.kind.error?.map f) (funext fun e => diagnose_shift bytes lines e _ _ rest)

/-- Scanners that have the same text to read, one further on than the other, scan it as the same tokens and diagnostics. -/
theorem scan_shift (s : Scanner) : ∀ s' : Scanner, s'.rest = s.rest → s'.position = s.position.shift bytes lines →
    s'.scan.tokens = s.scan.tokens.map (fun t => t.shift bytes lines) ∧
      s'.scan.diagnostics = s.scan.diagnostics.map (fun d => d.shift bytes lines) := by
  induction s using scan_induction with
  | stop s hs =>
    intro s' hr hp
    obtain ⟨hsr, hsp⟩ := skip_shift bytes lines hr hp
    rw [scan_stop s' (hsr.trans hs), hsp]
    exact ⟨rfl, rfl⟩
  | step s l rest hl ih =>
    intro s' hr hp
    obtain ⟨hsr, hsp⟩ := skip_shift bytes lines hr hp
    obtain ⟨htoken, hdiagnostic, hbehind⟩ := stepOver_shift bytes lines hsp l rest
    obtain ⟨htokens, hdiagnostics⟩ := ih (s'.skip.behind l rest) rfl hbehind
    rw [scan_step s' l rest (hsr ▸ hl)]
    refine ⟨?_, ?_⟩
    · rw [Scan.cons, Scan.cons, List.map_cons, htoken, htokens]
    · rw [Scan.cons, Scan.cons, List.map_append, hdiagnostic, hdiagnostics, Option.toList_map]

end Scanner

end Shift

/-! ## Line breaks -/

/-- The place behind a text that ends in a line feed is the beginning of a line. -/
theorem advance_lineFeed (start : Nat) (cs : List Char) : Position.advance ⟨start, 1, 1⟩ (cs ++ ['\n']) =
    Position.shift ⟨0, 1, 1⟩ (start + byteLength cs + 1) (lineBreaks (cs ++ ['\n'])) := by
  have hoffset := offset_advance ⟨start, 1, 1⟩ (cs ++ ['\n'])
  have hline := line_advance ⟨start, 1, 1⟩ (cs ++ ['\n'])
  have hcolumn : (Position.advance ⟨start, 1, 1⟩ (cs ++ ['\n'])).column = 1 := by
    generalize hall : cs ++ ['\n'] = all
    have hlength : all.length = cs.length + 1 := by simp [← hall]
    have hplace : Position.advance ⟨start, 1, 1⟩ all = placeAt start all all.length := by
      have h := @advance_placeAt start [] all [] _ (placeAt_zero start _).symm (Seam.nil_right all).uncut
      simpa using h
    have hc : all[cs.length]? = some '\n' := by simp [← hall]
    have hb : breakEndsAt all cs.length = true := by simp [breakEndsAt, hc]
    rw [hplace, hlength, placeAt_succ_of_break start hc hb]
    rfl
  rw [byteLength_append] at hoffset
  generalize Position.advance ⟨start, 1, 1⟩ (cs ++ ['\n']) = p at *
  obtain ⟨offset, line, column⟩ := p
  subst hoffset hline hcolumn
  simp only [Position.shift, Nat.zero_add, Nat.add_assoc]
  rfl

/-! ## In front of the line feed -/

/-- A gap ends in a block comment that is not closed. -/
def EndsOpen (gap : List Char) : Prop := ∃ pieces comment, gap = pieces ++ comment ∧ Gap pieces comment ∧ OpenComment comment

/-- A last gap that does not end in an open comment is a gap, and so is it with a line feed behind it, whatever follows. -/
theorem Grammar.LastGap.append_lineFeed {gap : List Char} (h : LastGap gap) (hn : ¬EndsOpen gap) (rest : List Char) :
    Gap (gap ++ ['\n']) rest := by
  have hfeed : Gap ['\n'] rest := Gap.cons (Piece.blank (by decide)) Gap.nil
  cases h with
  | closed hg =>
    refine Gap.append (hg.of_head (fun c hc => Or.inr (Or.inr ?_))) hfeed
    exact (Option.some.inj hc).symm
  | opened hg ho => exact absurd ⟨_, _, rfl, hg, ho⟩ hn

namespace Scanner

theorem dropLast_cons (step : Step) (s : Scanner) :
    (Scan.cons step s.scan).tokens.dropLast = step.token :: s.scan.tokens.dropLast := by
  obtain ⟨body, last, h, -⟩ := (tiles_scan s).ends
  rw [Scan.cons, h]
  exact List.dropLast_cons_of_ne_nil (List.append_ne_nil_of_right_ne_nil _ (List.cons_ne_nil _ _))

/-- A scan comes to the end of its text outside of string literals and comments: no literal is reported that goes on to the
end, and what is left behind the last token does not end in an open comment. -/
structure Finishes (s : Scanner) : Prop where
  closed : ∀ d ∈ s.scan.diagnostics, d.error ≠ .endlessString
  lastGap : ∀ pre gap, s.rest = pre ++ gap →
    endOf s.position.offset s.scan.tokens.dropLast = s.position.offset + byteLength pre → ¬EndsOpen gap

namespace Finishes

variable {s : Scanner} {l : Lexeme} {rest : List Char}

/-- The text that a scan which finishes leaves behind the last token is a gap with a line feed behind it, whatever follows. -/
theorem gap (h : s.Finishes) (hs : s.skip.rest = []) (b : List Char) : Gap (s.rest ++ ['\n']) b := by
  refine (lastGap_skip hs).2.append_lineFeed (h.lastGap [] s.rest rfl ?_) b
  rw [scan_stop s hs]
  rfl

/-- A scan that finishes does so from behind its first lexeme as well. -/
theorem behind (h : s.Finishes) (hl : Lexeme.read? s.skip.rest = some (l, rest)) : (s.skip.behind l rest).Finishes := by
  have hclosed := h.closed
  have hlast := h.lastGap
  rw [scan_step s l rest hl] at hclosed hlast
  refine ⟨fun d hd => hclosed d (List.mem_append_right _ hd), fun pre gap hpre hend => ?_⟩
  refine hlast (s.gap ++ (l.text ++ pre)) gap ?_ ?_
  · have hrest : rest = pre ++ gap := hpre
    rw [← gap_append_text hl, hrest, List.append_assoc, List.append_assoc]
  · rw [dropLast_cons, endOf]
    refine hend.trans ?_
    simp only [offset_behind, offset_skip, byteLength_append, Nat.add_assoc]

/-- A lexeme is read again if a line feed and any text are put behind the text, since it is not an endless literal. -/
theorem repeats (h : s.Finishes) (hl : Lexeme.read? s.skip.rest = some (l, rest)) {s' : Scanner} {b : List Char}
    (hs : s'.rest = s.rest ++ '\n' :: b) (hp : s'.position = s.position) : s.Repeats l rest s' (rest ++ '\n' :: b) := by
  have hs' : s'.rest = s.gap ++ (l.text ++ (rest ++ '\n' :: b)) := by
    rw [hs, ← gap_append_text hl]
    simp only [List.append_assoc]
  refine repeats_of_glimpse hl hs' hp (glimpse_append_blank rest b rfl) (fun hk => ?_) (fun hk => ?_)
  · exact List.head?_append_of_ne_nil _ ((Lexeme.endsBefore_of_read? hl).ne_nil_of_broken hk)
  · have hclosed := h.closed
    rw [scan_step s l rest hl, diagnostics_of_some ((Kind.error?_eq_some_iff _ _).mpr hk)] at hclosed
    exact hclosed _ List.mem_cons_self (LexError.error_diagnose _ _ _ _)

end Finishes

/-- A scan that finishes gives the same tokens and diagnostics, without the end of the text, if a line feed and another text
are put behind its text. It goes on behind the line feed, with the other text. -/
theorem scan_joined (b : List Char) (s : Scanner) : ∀ (s' : Scanner) (read : List Char), s'.rest = s.rest ++ '\n' :: b →
    s'.position = s.position → s'.Stands read → s.Finishes →
    ∃ t : Scanner, t.rest = b ∧ t.position = (beginning s'.source).advance (read ++ (s.rest ++ ['\n'])) ∧
      s'.scan.tokens = s.scan.tokens.dropLast ++ t.scan.tokens ∧
      s'.scan.diagnostics = s.scan.diagnostics ++ t.scan.diagnostics := by
  induction s using scan_induction with
  | stop s hs =>
    intro s' read hr hp h hf
    have hrest : s'.rest = (s.rest ++ ['\n']) ++ b := by rw [hr, List.append_assoc, List.singleton_append]
    have hcut : Uncut (s.rest ++ ['\n']) b := by
      rintro ⟨hc, -⟩
      rw [List.getLast?_concat] at hc
      cases hc
    have hseam := h.seam
    rw [hrest] at hseam
    refine ⟨⟨s'.source, b, s'.position.advance (s.rest ++ ['\n'])⟩, rfl, ?_, ?_⟩
    · rw [h.position, hseam.left.uncut.advance_append]
    · rw [scan_of_gap hrest (hf.gap hs b) hcut]
      exact ⟨rfl, rfl⟩
  | step s l rest hl ih =>
    intro s' read hr hp h hf
    have hrep := hf.repeats hl hr hp
    have hstands := h.skip.behind s'.not_startsBetween_skip hrep.read
    obtain ⟨t, ht, hposition, htokens, hdiagnostics⟩ :=
      ih (s'.skip.behind l (rest ++ '\n' :: b)) _ rfl hrep.behind hstands (hf.behind hl)
    refine ⟨t, ht, ?_, ?_, ?_⟩
    · rw [hposition, hrep.gap, ← gap_append_text hl]
      simp only [List.append_assoc]
      rfl
    · rw [scan_step s' l _ hrep.read, dropLast_cons, Scan.cons, htokens, hrep.token, List.cons_append]
    · rw [scan_step s' l _ hrep.read, Scan.cons, Scan.cons, hdiagnostics, hrep.diagnostic, List.append_assoc]

end Scanner

/-! ## Sources -/

/-- What stands in a source behind its last token. -/
def lastGap (source : String) : String :=
  (Span.mk (endOf (byteLength (markOf source)) (tokenize source).tokens.dropLast) source.utf8ByteSize).slice source

/-- A line feed behind a source belongs to its text. -/
theorem markOf_append_lineFeed (a : String) : markOf (a ++ "\n") = markOf a ∧ textOf (a ++ "\n") = textOf a ++ ['\n'] := by
  by_cases ha : a.toList = []
  · have hfeed : (a ++ "\n").toList = ['\n'] := by rw [String.toList_append, ha]; decide
    unfold markOf textOf
    rw [hfeed, ha]
    exact ⟨rfl, rfl⟩
  · exact ⟨markOf_append ha "\n", textOf_append ha "\n"⟩

/-- A source without an endless literal whose last gap does not end in an open comment is scanned to its end. -/
theorem finishes_ofSource {a : String} (hstring : ∀ d ∈ (tokenize a).diagnostics, d.error ≠ .endlessString)
    (hcomment : ¬EndsOpen (lastGap a).toList) : (Scanner.ofSource a).Finishes := by
  refine ⟨hstring, fun pre gap hpre hend => ?_⟩
  rw [Scanner.rest_ofSource] at hpre
  rw [Scanner.position_ofSource] at hend
  have hs := (markOf_append_textOf a).symm
  rw [hpre] at hs
  have hc : (Span.mk (endOf (byteLength (markOf a)) (tokenize a).tokens.dropLast) a.utf8ByteSize).Covers a gap [] := by
    refine ⟨markOf a ++ pre, by simp [hs], ?_, ?_⟩
    · rw [byteLength_append]
      exact hend
    · rw [← byteLength_append, List.append_assoc, ← hs, byteLength_toList]
  rwa [lastGap, hc.slice_eq, String.toList_ofList] at hcomment

/-- A line that was counted in 32 bits is not behind the last line of the source. -/
theorem toNat_line_le {source : String} {line : UInt32} {offset : Nat} (h : line = (countedPlaceOf source offset).1) :
    line.toNat ≤ 1 + lineBreaks (textOf source) := by
  rw [h, countedPlaceOf, UInt32.toNat_ofNat']
  exact (Nat.mod_le _ _).trans (lineAt_le _ _)

/-- The lines of the second of two joined texts go on as numbers where the two together have fewer lines than there are
numbers. -/
theorem toNat_line_shift {a b : String} (hcount : lineBreaks (a ++ "\n" ++ b).toList + 1 < UInt32.size) :
    (∀ t ∈ (tokenize b).tokens, (t.shift (a.utf8ByteSize + 1) (lineBreaks (a ++ "\n").toList)).line.toNat =
        t.line.toNat + lineBreaks (a ++ "\n").toList) ∧
      ∀ d ∈ (tokenize b).diagnostics, (d.shift (a.utf8ByteSize + 1) (lineBreaks (a ++ "\n").toList)).line.toNat =
        d.line.toNat + lineBreaks (a ++ "\n").toList := by
  have hcut : Uncut (a ++ "\n").toList b.toList := by simp [Uncut]
  rw [String.toList_append, hcut.lineBreaks_append, lineBreaks_toList b] at hcount
  obtain ⟨hlocated, -⟩ := tokenize_located b
  refine ⟨fun t ht => ?_, fun d hd => ?_⟩
  · have hle : t.line.toNat ≤ _ := toNat_line_le (congrArg Prod.fst (hlocated.tokens_at t ht))
    exact toNat_add_ofNat (by omega)
  · have hle : d.line.toNat ≤ _ := toNat_line_le (congrArg Prod.fst (hlocated.diagnostics_at d hd))
    exact toNat_add_ofNat (by omega)

/-- Two texts with a line feed between them have the tokens of the first without its end and behind them the tokens of the
second, as many bytes and lines further on as the first has with the line feed. The diagnostics are those of the first and
behind them those of the second, further on. The second must not begin with the mark that is skipped at the beginning of a
source, and the first must not end in a string literal or a block comment that is not closed. Lines are counted in 32 bits, and
go on as numbers where the two texts together have fewer lines than there are numbers. -/
theorem tokenize_joined (a b : String) (hmark : b.toList.head? ≠ some Scanner.byteOrderMark)
    (hstring : ∀ d ∈ (tokenize a).diagnostics, d.error ≠ .endlessString) (hcomment : ¬EndsOpen (lastGap a).toList) :
    let bytes := a.utf8ByteSize + 1
    let lines := lineBreaks (a ++ "\n").toList
    (tokenize (a ++ "\n" ++ b)).tokens =
        (tokenize a).tokens.dropLast ++ (tokenize b).tokens.map (fun t => t.shift bytes lines) ∧
      (tokenize (a ++ "\n" ++ b)).diagnostics =
        (tokenize a).diagnostics ++ (tokenize b).diagnostics.map (fun d => d.shift bytes lines) ∧
      (lineBreaks (a ++ "\n" ++ b).toList + 1 < UInt32.size →
        (∀ t ∈ (tokenize b).tokens, (t.shift bytes lines).line.toNat = t.line.toNat + lines) ∧
          ∀ d ∈ (tokenize b).diagnostics, (d.shift bytes lines).line.toNat = d.line.toNat + lines) := by
  intro bytes lines
  have hne : (a ++ "\n").toList ≠ [] := by simp
  obtain ⟨hm, ht⟩ := markOf_append_lineFeed a
  have htext : (Scanner.ofSource (a ++ "\n" ++ b)).rest = (Scanner.ofSource a).rest ++ '\n' :: b.toList := by
    rw [Scanner.rest_ofSource, Scanner.rest_ofSource, textOf_append hne, ht, List.append_assoc, List.singleton_append]
  have hstart : (Scanner.ofSource (a ++ "\n" ++ b)).position = (Scanner.ofSource a).position := by
    rw [Scanner.position_ofSource, Scanner.position_ofSource, markOf_append hne, hm]
  obtain ⟨t, hrest, hposition, htokens, hdiagnostics⟩ := Scanner.scan_joined b.toList (Scanner.ofSource a)
    (Scanner.ofSource (a ++ "\n" ++ b)) [] htext hstart (Scanner.stands_ofSource _)
    (finishes_ofSource hstring hcomment)
  have hbytes : byteLength (markOf a) + byteLength (textOf a) = a.utf8ByteSize := by
    rw [← byteLength_append, markOf_append_textOf, byteLength_toList]
  have hlines : lineBreaks (textOf a ++ ['\n']) = lines := by
    rw [← ht, ← lineBreaks_toList]
  have hplace : t.position = (Scanner.ofSource b).position.shift bytes lines := by
    rw [hposition, Scanner.source_ofSource, Scanner.rest_ofSource, Scanner.position_ofSource, (markOf_of_head? hmark).1,
      beginning, markOf_append hne, hm, List.nil_append, advance_lineFeed, hbytes, hlines]
    rfl
  obtain ⟨htokens', hdiagnostics'⟩ := Scanner.scan_shift bytes lines (Scanner.ofSource b) t
    (by rw [hrest, Scanner.rest_ofSource, (markOf_of_head? hmark).2]) hplace
  refine ⟨?_, ?_, toNat_line_shift⟩
  · rw [tokenize, htokens, htokens']
    rfl
  · rw [tokenize, hdiagnostics, hdiagnostics']
    rfl

/-- The first text begins with the mark and breaks off in a string literal in front of a carriage return, which is one line
break with the line feed behind it. The second has an error as well and ends in an open comment. -/
theorem tokenize_joined_carriageReturn :
    let a := "\uFEFFx \"y\r"
    let b := "&\n1 /*"
    b.toList.head? ≠ some Scanner.byteOrderMark ∧ (∀ d ∈ (tokenize a).diagnostics, d.error ≠ .endlessString) ∧
      ¬EndsOpen (lastGap a).toList ∧ lineBreaks (a ++ "\n").toList = 1 ∧
      (tokenize (a ++ "\n" ++ b)).tokens =
        (tokenize a).tokens.dropLast ++ (tokenize b).tokens.map (fun t => t.shift 9 1) ∧
      (tokenize (a ++ "\n" ++ b)).diagnostics =
        (tokenize a).diagnostics ++ (tokenize b).diagnostics.map (fun d => d.shift 9 1) ∧
      ∀ t ∈ (tokenize b).tokens, (t.shift 9 1).line.toNat = t.line.toNat + 1 := by
  intro a b
  have hmark : b.toList.head? ≠ some Scanner.byteOrderMark := by decide
  have hstring : ∀ d ∈ (tokenize a).diagnostics, d.error ≠ .endlessString := by decide +kernel
  have hcomment : ¬EndsOpen (lastGap a).toList := by
    have hgap : (lastGap a).toList = ['\r'] := by decide +kernel
    rw [hgap]
    rintro ⟨pieces, comment, h, -, body, rfl, -⟩
    have hlength := congrArg List.length h
    simp only [List.length_append, List.length_cons, List.length_nil] at hlength
    omega
  have hlines : lineBreaks (a ++ "\n").toList = 1 := by decide +kernel
  have hcount : lineBreaks (a ++ "\n" ++ b).toList + 1 < UInt32.size := by decide +kernel
  obtain ⟨htokens, hdiagnostics, hexact⟩ := tokenize_joined a b hmark hstring hcomment
  have hbytes : a.utf8ByteSize + 1 = 9 := by decide
  have hnumbers := (hexact hcount).1
  rw [hbytes, hlines] at htokens hdiagnostics hnumbers
  exact ⟨hmark, hstring, hcomment, hlines, htokens, hdiagnostics, hnumbers⟩

end MiniLex
