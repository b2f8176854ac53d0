import MiniLex.Proofs.Head.Basic
import MiniLex.Proofs.LineEnds

/-!
# Moves that follow a scanner

A head shows what a scanner does when its cursor stands where the text that is still to be read begins (`Head.Shows`), and a move
leads from one scanner to another when every head that shows the first comes, without failing, to show the second
(`Head.Leads`). Both are composed along a move as it is written. A head that shows a scanner has done nothing that is not safe
(`Head.Safe`), and this is kept because the cursor only goes on by whole characters (`Head.Shows.record`): what is sliced are
stretches between two scanners (`Scanner.Placed.covers`).
-/

namespace MiniLex

/-! ## Safety -/

/-- What is done with the bytes of a source is safe: the cursor and the marks are offsets in it between two characters, and what
is sliced lies in the text it is sliced from, with both ends between characters. A string literal that is sliced has a quote at
each end. -/
def Touch.Safe (source : String) : Touch → Prop
  | .cursor offset | .mark offset => offset ≤ source.utf8ByteSize ∧ (String.Pos.Raw.mk offset).IsValid source
  | .slice span => span.Fits source
  | .unquote lexeme span => 2 ≤ lexeme.utf8ByteSize ∧ lexeme.toList.head? = some '"' ∧ lexeme.toList.getLast? = some '"' ∧
      span.Fits lexeme

/-- The offset that the cursor is put to or marked at. -/
def Touch.place? : Touch → Option Nat
  | .cursor offset | .mark offset => some offset
  | .slice _ | .unquote _ _ => none

namespace Head

/-- The offsets that the cursor was put to or marked at, the latest first. -/
def places (h : Head) : List Nat := h.touches.filterMap Touch.place?

/-- A head is safe: all that it has done is safe, and its cursor has never gone back, so that no mark is behind it. -/
structure Safe (h : Head) : Prop where
  touches : ∀ touch ∈ h.touches, touch.Safe h.source
  cursor : (Touch.cursor h.cursor.offset).Safe h.source
  ordered : h.places.Pairwise (fun later earlier => earlier ≤ later)
  le_cursor : ∀ offset ∈ h.places, offset ≤ h.cursor.offset

end Head

/-! ## Where a scanner stands -/

/-- A character that breaks no line takes a place one column to the right. -/
theorem advance_cons_of_not_isBreak (p : Position) {c : Char} (hc : isBreak c = false) (cs : List Char) :
    p.advance (c :: cs) = (p.right c).advance cs := by
  have hn : ∀ tail, c = '\r' → cs = '\n' :: tail → False := by
    rintro tail rfl -
    cases hc
  rw [Position.advance.eq_3 _ _ _ hn, hc]
  rfl

theorem advance_of_isBreak (p : Position) {c : Char} (hc : isBreak c = true) : p.advance [c] = p.nextLine 1 := by
  rw [Position.advance.eq_3 _ _ _ (by simp), hc]
  rfl

/-- What belongs to a class without line breaks is none. -/
theorem not_isBreak_of_class {f : Char → Bool} (hf : ∀ d, isBreak d = true → f d = false) {c : Char} (hc : f c = true) :
    isBreak c = false := by
  rw [Bool.eq_false_iff]
  intro hb
  rw [hf c hb] at hc
  cases hc

theorem Uncut.of_not_isBreak {c : Char} (h : isBreak c = false) (cs : List Char) : Uncut [c] cs := by
  rintro ⟨hc, -⟩
  obtain rfl : c = '\r' := by simpa using hc
  cases h

theorem byteLength_lt_append {cs : List Char} (h : cs ≠ []) (ds : List Char) : byteLength ds < byteLength (cs ++ ds) := by
  rw [byteLength_append]
  exact Nat.lt_add_of_pos_left (byteLength_pos h)

theorem Uncut.of_append_right {cs ds es : List Char} (h : Uncut cs (ds ++ es)) : Uncut cs ds := by
  rintro ⟨hc, hd⟩
  refine h ⟨hc, ?_⟩
  rw [List.head?_append, hd]
  rfl

/-- A character is cut from a text only if the two are a line break. -/
theorem not_uncut {c : Char} {cs : List Char} (h : ¬Uncut [c] cs) : ∃ tail, c = '\r' ∧ cs = '\n' :: tail := by
  obtain ⟨hc, hd⟩ := Classical.not_not.mp h
  obtain ⟨tail, rfl⟩ := List.head?_eq_some_iff.mp hd
  exact ⟨tail, by simpa using hc, rfl⟩

namespace Scanner

/-- A scanner stands in its source: what it has to read is the end of the source, and it knows the offset where that begins. -/
def Placed (s : Scanner) : Prop := ∃ front, s.source.toList = front ++ s.rest ∧ s.position.offset = byteLength front

/-- The scanner behind some text. -/
def past (s : Scanner) (text rest : List Char) : Scanner := ⟨s.source, rest, s.position.advance text⟩

variable {s : Scanner} {text text' rest rest' : List Char}

/-- Behind two texts is behind the second, from behind the first, if they cut no line break in two. -/
theorem past_past (h : Uncut text text') : (s.past text rest).past text' rest' = s.past (text ++ text') rest' := by
  rw [past, past, past, h.advance_append]

/-- A scanner that stands in its source does so behind any text, with whatever line and column. -/
theorem Placed.behind (h : s.Placed) (hr : s.rest = text ++ rest) {q : Position}
    (hq : q.offset = s.position.offset + byteLength text) : (⟨s.source, rest, q⟩ : Scanner).Placed := by
  obtain ⟨front, hs, ho⟩ := h
  refine ⟨front ++ text, ?_, ?_⟩
  · rw [hs, hr, List.append_assoc]
  · rw [hq, ho, byteLength_append]

/-- Between a scanner and the one behind a text stands the text. -/
theorem Placed.covers (h : s.Placed) (hr : s.rest = text ++ rest) :
    (Span.mk s.position.offset (s.past text rest).position.offset).Covers s.source text rest := by
  obtain ⟨front, hs, ho⟩ := h
  refine ⟨front, by rw [hs, hr], ho, ?_⟩
  rw [past, offset_advance, ho]

/-- Between a scanner and the end of the source stands what is to be read. -/
theorem Placed.covers_rest (h : s.Placed) : (Span.mk s.position.offset s.source.utf8ByteSize).Covers s.source s.rest [] := by
  obtain ⟨front, hs, ho⟩ := h
  refine ⟨front, by rw [hs, List.append_nil], ho, ?_⟩
  rw [← byteLength_toList, hs, byteLength_append]

/-- Where a scanner stands the cursor can be put. -/
theorem Placed.cursor_safe (h : s.Placed) : (Touch.cursor s.position.offset).Safe s.source := by
  obtain ⟨_, hstop, hvalid, _⟩ := h.covers_rest.fits
  exact ⟨hvalid.le_rawEndPos, hvalid⟩

end Scanner

namespace Head

/-! ## Heads that show a scanner -/

/-- A head shows what a scanner does: it is over the same source, and its cursor stands where the text to be read begins. -/
structure Shows (h : Head) (s : Scanner) : Prop where
  source_eq : h.source = s.source
  cursor_eq : h.cursor = s.position
  placed : s.Placed
  safe : h.Safe

/-- A head still shows a scanner when something safe is done, if the cursor, where it is put to an offset or marked, is then
where the scanner stands. -/
theorem Shows.record {h : Head} {s : Scanner} {touch : Touch} {rest : List Char} {p : Position} (hs : h.Shows s)
    (ht : touch.Safe s.source) (hp : ∀ offset, touch.place? = some offset → offset = p.offset)
    (hplaced : (⟨s.source, rest, p⟩ : Scanner).Placed) (hle : s.position.offset ≤ p.offset) :
    Shows ⟨h.source, p, touch :: h.touches⟩ ⟨s.source, rest, p⟩ := by
  have hsource := hs.source_eq
  -- earlier places are at most the old cursor, and the cursor never goes back
  have hearlier : ∀ offset ∈ h.places, offset ≤ p.offset := by
    intro offset ho
    have := hs.safe.le_cursor offset ho
    rw [hs.cursor_eq] at this
    omega
  refine ⟨hsource, rfl, hplaced, ?_, hsource ▸ hplaced.cursor_safe, ?_, ?_⟩
  · intro touch' hm
    rcases List.mem_cons.mp hm with rfl | hm
    · exact hsource ▸ ht
    · exact hs.safe.touches touch' hm
  · cases ho : touch.place? with
    | none =>
      rw [places, List.filterMap_cons_none ho]
      exact hs.safe.ordered
    | some offset =>
      rw [places, List.filterMap_cons_some ho, hp offset ho]
      exact List.pairwise_cons.mpr ⟨hearlier, hs.safe.ordered⟩
  · intro offset hm
    obtain ⟨touch', hm', ho⟩ := List.mem_filterMap.mp hm
    rcases List.mem_cons.mp hm' with rfl | hm'
    · exact Nat.le_of_eq (hp offset ho)
    · exact hearlier offset (List.mem_filterMap.mpr ⟨touch', hm', ho⟩)

theorem Shows.stay {h : Head} {s : Scanner} {touch : Touch} (hs : h.Shows s) (ht : touch.Safe s.source)
    (hp : ∀ offset, touch.place? = some offset → offset = s.position.offset) :
    Shows ⟨h.source, h.cursor, touch :: h.touches⟩ s := by
  rw [hs.cursor_eq]
  exact hs.record ht hp hs.placed (Nat.le_refl _)

/-- A move leads from one scanner to another: a head that shows the first one does not fail, comes to the result and shows the
second one. What it has done before is not forgotten. -/
def Leads {α : Type} (m : Move α) (s : Scanner) (a : α) (s' : Scanner) : Prop :=
  ∀ h : Head, h.Shows s → ∃ h' : Head, m.run h = some (a, h') ∧ h'.Shows s' ∧ h.touches <:+ h'.touches

namespace Leads

variable {α β : Type} {m : Move α} {f : α → Move β} {a : α} {b : β} {s s' s'' : Scanner}

theorem pure (a : α) (s : Scanner) : Leads (Pure.pure a) s a s :=
  fun h hs => ⟨h, rfl, hs, List.suffix_refl _⟩

theorem bind (h : Leads m s a s') (hf : Leads (f a) s' b s'') : Leads (m >>= f) s b s'' := by
  intro h₀ h₀s
  obtain ⟨h₁, hm, h₁s, hkept⟩ := h h₀ h₀s
  obtain ⟨h₂, hr, h₂s, hkept'⟩ := hf h₁ h₁s
  refine ⟨h₂, ?_, h₂s, hkept.trans hkept'⟩
  rw [StateT.run_bind, hm]
  exact hr

theorem inr (h : Leads m s a s') : Leads ((Sum.inr : α → β ⊕ α) <$> m) s (.inr a) s' := by
  intro h₀ h₀s
  obtain ⟨h₁, hm, h₁s⟩ := h h₀ h₀s
  refine ⟨h₁, ?_, h₁s⟩
  rw [StateT.run_map, hm]
  rfl

theorem get {f : Head → Move β} (hf : ∀ h : Head, h.Shows s → Leads (f h) s b s') : Leads (MonadState.get >>= f) s b s' := by
  intro h hs
  exact hf h hs h hs

/-- A move may rely on where it starts. -/
theorem of_placed (h : s.Placed → Leads m s a s') : Leads m s a s' := fun h₀ h₀s => h h₀s.placed h₀ h₀s

end Leads

/-- As many bytes are behind the cursor as the scanner has to read. -/
theorem Shows.left_eq {h : Head} {s : Scanner} (hs : h.Shows s) : h.left = byteLength s.rest := by
  obtain ⟨front, hsource, ho⟩ := hs.placed
  rw [left, hs.source_eq, hs.cursor_eq, ho, ← byteLength_toList, hsource, byteLength_append, Nat.add_sub_cancel_left]

/-! ## Bytes -/

variable {s : Scanner} {source : String} {c : Char} {cs text rest : List Char} {p : Position}

/-- The cursor may be put behind a text. -/
theorem leads_moveTo (text : List Char) {q : Position} (hq : q.offset = p.offset + byteLength text) :
    Leads (moveTo q) ⟨source, text ++ rest, p⟩ () ⟨source, rest, q⟩ := by
  intro h hs
  have hplaced : (⟨source, rest, q⟩ : Scanner).Placed := hs.placed.behind rfl hq
  refine ⟨⟨h.source, q, .cursor q.offset :: h.touches⟩, rfl, hs.record hplaced.cursor_safe ?_ hplaced ?_,
    List.suffix_cons _ _⟩
  · intro offset ho
    exact (Option.some.inj ho).symm
  · rw [hq]
    exact Nat.le_add_right _ _

theorem leads_mark : Leads mark s s.position s := by
  intro h hs
  have hrun : mark.run h = some (h.cursor, ⟨h.source, h.cursor, .mark h.cursor.offset :: h.touches⟩) := rfl
  rw [← hs.cursor_eq]
  refine ⟨_, hrun, hs.stay ?_ ?_, List.suffix_cons _ _⟩
  · rw [hs.cursor_eq]
    exact hs.placed.cursor_safe
  · intro offset ho
    rw [← hs.cursor_eq]
    exact (Option.some.inj ho).symm

/-- What a span covers can be sliced. -/
theorem leads_slice {span : Span} (hc : span.Covers s.source text rest) : Leads (slice span) s (String.ofList text) s := by
  intro h hs
  have hsafe : (Touch.slice span).Safe s.source := hc.fits
  refine ⟨_, ?_, hs.stay hsafe (by simp [Touch.place?]), List.suffix_cons _ _⟩
  have hcut : cut h.source span = Pure.pure (String.ofList text) := by
    rw [hs.source_eq, cut, if_pos hc.fits, hc.slice_eq]
  change (cut h.source span).run ⟨h.source, h.cursor, .slice span :: h.touches⟩ = _
  rw [hcut]
  rfl

/-- The quotes of a string literal can be taken off. -/
theorem leads_unquote (s : Scanner) (body : List Char) :
    Leads (unquote (String.ofList ('"' :: (body ++ ['"'])))) s (String.ofList body) s := by
  intro h hs
  generalize hl : String.ofList ('"' :: (body ++ ['"'])) = lexeme
  have htext : lexeme.toList = ['"'] ++ (body ++ ['"']) := by rw [← hl, String.toList_ofList]; rfl
  have hsize : lexeme.utf8ByteSize = 1 + byteLength body + 1 := by
    rw [← byteLength_toList, htext, byteLength_append, byteLength_append]
    rfl
  have hc : (Span.mk 1 (lexeme.utf8ByteSize - 1)).Covers lexeme body ['"'] := by
    refine ⟨['"'], htext, rfl, ?_⟩
    rw [hsize, Nat.add_sub_cancel]
    rfl
  have hsafe : (Touch.unquote lexeme ⟨1, lexeme.utf8ByteSize - 1⟩).Safe s.source := by
    refine ⟨by omega, by rw [htext]; rfl, ?_, hc.fits⟩
    rw [htext, ← List.append_assoc, List.getLast?_append]
    rfl
  refine ⟨_, ?_, hs.stay hsafe (by simp [Touch.place?]), List.suffix_cons _ _⟩
  have hcut : cut lexeme ⟨1, lexeme.utf8ByteSize - 1⟩ = Pure.pure (String.ofList body) := by
    rw [cut, if_pos hc.fits, hc.slice_eq]
  change (cut lexeme ⟨1, lexeme.utf8ByteSize - 1⟩).run ⟨h.source, h.cursor, _ :: h.touches⟩ = _
  rw [hcut]
  rfl

/-- From a mark up to the cursor stands the text between the two. -/
theorem leads_textFrom (hs : s.Placed) (hr : s.rest = text ++ rest) :
    Leads (textFrom s.position) (s.past text rest) (String.ofList text) (s.past text rest) := by
  refine Leads.get (fun h hh => ?_)
  rw [hh.cursor_eq]
  exact leads_slice (hs.covers hr)

/-! ## Loops -/

/-- A loop ends with a round that comes to a result. -/
theorem Leads.loop_stop {α β : Type} {round : β → Move (β ⊕ α)} {b : β} {a : α} {s s' : Scanner}
    (hround : Leads (round b) s (.inr a) s') : Leads (loop round b) s a s' := by
  intro h hs
  obtain ⟨h', hrun, hs'⟩ := hround h hs
  refine ⟨h', ?_, hs'⟩
  change loop round b h = _
  rw [loop, hrun]

/-- A loop goes on behind a round that takes the scanner on. -/
theorem Leads.loop_step {α β : Type} {round : β → Move (β ⊕ α)} {b b' : β} {a : α} {s s' s'' : Scanner}
    (hround : Leads (round b) s (.inl b') s') (hlt : byteLength s'.rest < byteLength s.rest)
    (hloop : Leads (loop round b') s' a s'') : Leads (loop round b) s a s'' := by
  intro h hs
  obtain ⟨h', hrun, hs', hkept⟩ := hround h hs
  obtain ⟨h'', hrest, hs'', hkept'⟩ := hloop h' hs'
  refine ⟨h'', ?_, hs'', hkept.trans hkept'⟩
  change loop round b h = _
  rw [loop, hrun]
  -- the bytes that the scanner has to read are those behind the cursor, so the loop does not fail here
  rw [← hs.left_eq, ← hs'.left_eq] at hlt
  exact (if_pos hlt).trans hrest

/-! ## Characters -/

theorem leads_ahead : Leads ahead s s.rest s := by
  refine Leads.get (fun h hh => ?_)
  rw [hh.cursor_eq, hh.source_eq]
  refine Leads.bind (leads_slice hh.placed.covers_rest) ?_
  rw [String.toList_ofList]
  exact Leads.pure _ _

theorem leads_peek : Leads peek s s.rest.head? s := leads_ahead.bind (Leads.pure _ _)

theorem leads_peekNext : Leads peekNext s s.rest.tail.head? s := leads_ahead.bind (Leads.pure _ _)

theorem leads_bump_nil : Leads bump ⟨source, [], p⟩ none ⟨source, [], p⟩ := leads_peek.bind (Leads.pure _ _)

/-- A head that has a character ahead takes it, and the cursor goes on by one column. -/
theorem leads_bump : Leads bump ⟨source, c :: cs, p⟩ (some c) ⟨source, cs, p.right c⟩ := by
  refine leads_peek.bind (Leads.get (fun h hh => ?_))
  rw [hh.cursor_eq]
  have hq : (p.right c).offset = p.offset + byteLength [c] := by simp [Position.right, byteLength]
  exact (leads_moveTo [c] hq).bind (Leads.pure _ _)

theorem leads_eat : Leads (eat c) ⟨source, c :: cs, p⟩ true ⟨source, cs, p.right c⟩ := by
  refine leads_peek.bind ?_
  rw [List.head?_cons, if_pos rfl]
  exact leads_bump.bind (Leads.pure _ _)

theorem leads_eat_of_ne (h : s.rest.head? ≠ some c) : Leads (eat c) s false s := by
  refine leads_peek.bind ?_
  rw [if_neg h]
  exact Leads.pure _ _

theorem leads_eatRound {f : Char → Bool} (hc : f c = true) :
    Leads (eatRound f) ⟨source, c :: cs, p⟩ (.inl ()) ⟨source, cs, p.right c⟩ := by
  refine leads_peek.bind ?_
  rw [List.head?_cons, Option.any_some, hc]
  exact leads_bump.bind (Leads.pure _ _)

theorem leads_eatRound_of_not {f : Char → Bool} (hc : f c = false) :
    Leads (eatRound f) ⟨source, c :: cs, p⟩ (.inr ()) ⟨source, c :: cs, p⟩ := by
  refine leads_peek.bind ?_
  rw [List.head?_cons, Option.any_some, hc]
  exact Leads.pure _ _

/-- Characters of a class without line breaks are taken as long as there are some. -/
theorem leads_eatWhile {f : Char → Bool} (hf : ∀ d, isBreak d = true → f d = false) :
    Leads (eatWhile f) s () (s.past (s.rest.takeWhile f) (s.rest.dropWhile f)) := by
  obtain ⟨source, cs, p⟩ := s
  induction cs generalizing p with
  | nil => exact Leads.loop_stop (leads_peek.bind (Leads.pure _ _))
  | cons d cs ih =>
    cases hd : f d with
    | false =>
      rw [List.takeWhile_cons_of_neg (by simp [hd]), List.dropWhile_cons_of_neg (by simp [hd])]
      exact Leads.loop_stop (leads_eatRound_of_not hd)
    | true =>
      rw [List.takeWhile_cons_of_pos hd, List.dropWhile_cons_of_pos hd]
      have htail := ih (p.right d)
      rw [Scanner.past, ← advance_cons_of_not_isBreak p (not_isBreak_of_class hf hd)] at htail
      exact Leads.loop_step (leads_eatRound hd) (byteLength_lt_append (List.cons_ne_nil d []) cs) htail

/-- Behind a character that breaks no line, they are taken together with it. -/
theorem leads_eatWhile_behind {f : Char → Bool} (hf : ∀ d, isBreak d = true → f d = false) (hc : isBreak c = false) :
    Leads (eatWhile f) (s.past [c] cs) () (s.past (c :: cs.takeWhile f) (cs.dropWhile f)) := by
  have h := leads_eatWhile (s := s.past [c] cs) hf
  rwa [Scanner.past_past (Uncut.of_not_isBreak hc _)] at h

/-! ## Line breaks -/

/-- Both halves of a line break are one. -/
theorem leads_newline_pair :
    Leads (newline '\r') ⟨source, '\n' :: cs, p.right '\r'⟩ () ⟨source, cs, p.advance ['\r', '\n']⟩ := by
  refine leads_eat.bind (Leads.get (fun h hh => ?_))
  rw [hh.cursor_eq]
  exact leads_moveTo [] rfl

/-- A line break that is not the first half of another is one alone. -/
theorem leads_newline (hc : isBreak c = true) (hu : Uncut [c] cs) :
    Leads (newline c) ⟨source, cs, p.right c⟩ () ⟨source, cs, p.advance [c]⟩ := by
  have hfeed : Leads (lineFeed c) ⟨source, cs, p.right c⟩ false ⟨source, cs, p.right c⟩ := by
    unfold lineFeed
    split
    · next hr => exact leads_eat_of_ne (fun hd => hu ⟨by rw [hr]; rfl, hd⟩)
    · exact Leads.pure _ _
  refine hfeed.bind (Leads.get (fun h hh => ?_))
  rw [hh.cursor_eq, advance_of_isBreak p hc]
  have hq : ((p.right c).nextLine 0) = p.nextLine 1 := by
    rw [Position.right, utf8Size_of_isBreak hc]
    rfl
  rw [hq]
  refine leads_moveTo [] ?_
  simp [Position.right, Position.nextLine, byteLength, utf8Size_of_isBreak hc]

end Head

end MiniLex
