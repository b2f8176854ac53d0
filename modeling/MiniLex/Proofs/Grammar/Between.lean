import MiniLex.Lexeme.Trivia
import MiniLex.Proofs.Grammar.Basic

/-!
# Blanks and comments in the grammar

`Trivia.read?` finds exactly the pieces of the grammar (`Grammar.Piece`) and the block comments that are never closed, and
nothing where neither of them comes first. What `Trivia.split` puts aside is therefore a gap of the grammar.
-/

namespace MiniLex

open Grammar

theorem isBreak_iff (c : Char) : isBreak c = true ↔ c = '\r' ∨ c = '\n' := by
  simp only [isBreak, Bool.or_eq_true, beq_iff_eq]
  exact or_comm

theorem isBlank_iff (c : Char) : isBlank c = true ↔ c = ' ' ∨ c = '\t' ∨ c = '\r' ∨ c = '\n' := by
  simp only [isBlank, Bool.or_eq_true, beq_iff_eq, isBreak_iff, or_assoc]

theorem not_isBreak_of_not_isBlank {c : Char} (h : isBlank c = false) : isBreak c = false := by
  rw [Bool.eq_false_iff] at h ⊢
  intro hb
  exact h ((isBlank_iff c).mpr (Or.inr (Or.inr ((isBreak_iff c).mp hb))))

/-! ## Prefixes with a property of their characters -/

/-- A text whose characters have a property, in front of one without it, is what is taken while the property holds. -/
theorem takeWhile_append_of_stop {p : Char → Bool} {cs ds : List Char} (hc : ∀ c ∈ cs, p c = true)
    (hd : ∀ d, ds.head? = some d → p d = false) : (cs ++ ds).takeWhile p = cs := by
  rw [List.takeWhile_append_of_pos hc]
  cases ds with
  | nil => simp
  | cons d ds => simp [hd d rfl]

theorem dropWhile_append_of_stop {p : Char → Bool} {cs ds : List Char} (hc : ∀ c ∈ cs, p c = true)
    (hd : ∀ d, ds.head? = some d → p d = false) : (cs ++ ds).dropWhile p = ds := by
  rw [List.dropWhile_append_of_pos hc]
  cases ds with
  | nil => simp
  | cons d ds => simp [hd d rfl]

theorem of_mem_takeWhile {p : Char → Bool} {cs : List Char} : ∀ c ∈ cs.takeWhile p, p c = true := by
  intro c hc
  exact List.all_eq_true.mp List.all_takeWhile c hc

theorem not_of_head?_dropWhile {p : Char → Bool} {cs : List Char} (d : Char) (h : (cs.dropWhile p).head? = some d) :
    p d = false := by
  have hn := List.head?_dropWhile_not p cs
  rw [h] at hn
  simpa using hn

/-! ## Closing marks -/

theorem closing_infix_cons (c : Char) (cs : List Char) :
    closing <:+: c :: cs ↔ (c = '*' ∧ cs.head? = some '/') ∨ closing <:+: cs := by
  rw [List.infix_cons_iff]
  refine or_congr_left ?_
  cases cs with
  | nil => simp [closing]
  | cons d cs => simp [closing, List.cons_prefix_cons, eq_comm]

/-- A text without a closing mark, in front of one, is split there. -/
theorem splitAtClosing?_append (body rest : List Char) (h : ¬closing <:+: body ++ ['*']) :
    splitAtClosing? (body ++ '*' :: '/' :: rest) = some (body, rest) := by
  induction body with
  | nil => rfl
  | cons c body ih =>
    rw [List.cons_append, closing_infix_cons, not_or] at h
    have hc : ∀ tail, c = '*' → body ++ '*' :: '/' :: rest = '/' :: tail → False := by
      intro tail hs ht
      apply h.1
      cases body with
      | nil => simp at ht
      | cons d body => simpa [hs] using (List.cons.inj ht).1
    rw [List.cons_append, splitAtClosing?.eq_3 _ _ hc, ih h.2]
    rfl

/-- A text is split at its first closing mark. -/
theorem not_closing_of_splitAtClosing? (cs body rest : List Char) (h : splitAtClosing? cs = some (body, rest)) :
    ¬closing <:+: body ++ ['*'] := by
  fun_induction splitAtClosing? cs generalizing body rest with
  | case1 => simp at h
  | case2 cs =>
    obtain ⟨rfl, rfl⟩ : [] = body ∧ cs = rest := by simpa using h
    decide
  | case3 c cs hc ih =>
    obtain ⟨⟨b, r⟩, hb, hr⟩ := Option.map_eq_some_iff.mp h
    obtain ⟨rfl, rfl⟩ : c :: b = body ∧ r = rest := by simpa using hr
    rw [List.cons_append, closing_infix_cons, not_or]
    refine ⟨?_, ih b r hb⟩
    rintro ⟨rfl, hs⟩
    have ht := eq_of_splitAtClosing? cs b r hb
    cases b with
    | nil => simp at hs
    | cons d b =>
      obtain rfl : d = '/' := by simpa using hs
      exact hc _ rfl ht

/-- A text is not split if it has no closing mark. -/
theorem splitAtClosing?_eq_none_iff (cs : List Char) : splitAtClosing? cs = none ↔ ¬closing <:+: cs := by
  fun_induction splitAtClosing? cs with
  | case1 => simp [closing]
  | case2 cs => simp [closing_infix_cons]
  | case3 c cs hc ih =>
    rw [Option.map_eq_none_iff, ih, closing_infix_cons, not_or]
    refine ⟨fun h => ⟨?_, h⟩, fun h => h.2⟩
    rintro ⟨rfl, hs⟩
    obtain ⟨tail, rfl⟩ := List.head?_eq_some_iff.mp hs
    exact hc tail rfl rfl

namespace Trivia

/-! ## One piece -/

/-- What is read is a piece, or a block comment that is never closed. -/
theorem piece_of_read? (cs rest : List Char) (t : Trivia) (h : read? cs = some (t, rest)) :
    Piece t.text rest ∨ (OpenComment cs ∧ rest = []) := by
  unfold read? at h
  split at h
  · next cs =>
    obtain ⟨rfl, rfl⟩ := by simpa using h
    left
    refine Piece.lineComment ?_ ?_
    · intro c hc
      have hb := of_mem_takeWhile c hc
      rw [Bool.not_eq_true', Bool.eq_false_iff, ne_eq, isBreak_iff, not_or] at hb
      exact hb
    · intro c hc
      have hb := not_of_head?_dropWhile c hc
      rwa [Bool.not_eq_false', isBreak_iff] at hb
  · next cs =>
    split at h
    · next body rest' hs =>
      obtain ⟨rfl, rfl⟩ := by simpa using h
      exact Or.inl (Piece.blockComment (not_closing_of_splitAtClosing? cs body rest' hs))
    · next hs =>
      obtain ⟨rfl, rfl⟩ := by simpa using h
      exact Or.inr ⟨⟨cs, rfl, (splitAtClosing?_eq_none_iff cs).mp hs⟩, rfl⟩
  · next c cs _ _ =>
    split at h
    · next hb =>
      obtain ⟨rfl, rfl⟩ := by simpa using h
      exact Or.inl (Piece.blank ((isBlank_iff c).mp hb))
    · simp at h
  · simp at h

/-- A piece is read as it is. -/
theorem read?_of_piece {piece rest : List Char} (h : Piece piece rest) :
    ∃ t : Trivia, t.text = piece ∧ read? (piece ++ rest) = some (t, rest) := by
  cases h with
  | @blank c _ hc =>
    refine ⟨.blank c, rfl, ?_⟩
    rcases hc with rfl | rfl | rfl | rfl <;> rfl
  | @lineComment body _ hb hr =>
    have hbody : ∀ c ∈ body, (!isBreak c) = true := by
      intro c hc
      rw [Bool.not_eq_true', Bool.eq_false_iff, ne_eq, isBreak_iff, not_or]
      exact hb c hc
    have hrest : ∀ c, rest.head? = some c → (!isBreak c) = false := by
      intro c hc
      rw [Bool.not_eq_false', isBreak_iff]
      exact hr c hc
    refine ⟨.lineComment body, rfl, ?_⟩
    simp only [List.cons_append, read?, takeWhile_append_of_stop hbody hrest, dropWhile_append_of_stop hbody hrest]
  | @blockComment body _ hb =>
    refine ⟨.blockComment body, rfl, ?_⟩
    have hs := splitAtClosing?_append body rest hb
    simp only [List.cons_append, List.append_assoc, closing, List.nil_append, read?, hs]

/-- A block comment that is never closed is read as one. -/
theorem read?_of_openComment {cs : List Char} (h : OpenComment cs) : ∃ t : Trivia, read? cs = some (t, []) := by
  obtain ⟨body, rfl, hb⟩ := h
  refine ⟨.openComment body, ?_⟩
  simp only [read?, (splitAtClosing?_eq_none_iff body).mpr hb]

/-- Nothing is read exactly where nothing of the kind comes first. -/
theorem read?_eq_none_iff (cs : List Char) : read? cs = none ↔ ¬StartsBetween cs := by
  constructor
  · rintro h (⟨piece, rest, rfl, hp⟩ | ho)
    · obtain ⟨t, -, ht⟩ := read?_of_piece hp
      rw [ht] at h
      cases h
    · obtain ⟨t, ht⟩ := read?_of_openComment ho
      rw [ht] at h
      cases h
  · intro h
    cases hr : read? cs with
    | none => rfl
    | some found =>
      obtain ⟨t, rest⟩ := found
      exfalso
      rcases piece_of_read? cs rest t hr with hp | ⟨ho, -⟩
      · exact h (Or.inl ⟨t.text, rest, text_append_of_read? cs rest t hr, hp⟩)
      · exact h (Or.inr ho)

/-! ## All pieces -/

/-- Where nothing of the kind comes first nothing is put aside. -/
theorem split_of_not_startsBetween {cs : List Char} (h : ¬StartsBetween cs) : split cs = ([], cs) := by
  have hr := (read?_eq_none_iff cs).mpr h
  rw [split]
  split
  · rfl
  · next ht => simp [hr] at ht

theorem split_nil : split [] = ([], []) := split_of_not_startsBetween ((read?_eq_none_iff []).mp rfl)

/-- A piece that is read is put aside together with those behind it. -/
theorem split_of_read? {cs rest : List Char} {t : Trivia} (h : read? cs = some (t, rest)) :
    split cs = (t :: (split rest).1, (split rest).2) := by
  rw [split]
  split
  · next ht => simp [h] at ht
  · next ht =>
    obtain ⟨rfl, rfl⟩ : t = _ ∧ rest = _ := by simpa [h] using ht
    rfl

/-- Behind what is put aside nothing of the kind comes first. -/
theorem not_startsBetween_split (cs : List Char) : ¬StartsBetween (split cs).2 := by
  fun_induction split cs with
  | case1 cs h => exact (read?_eq_none_iff cs).mp h
  | case2 cs t rest h pieces rest' hs ih => simpa [hs] using ih

/-- In front of a text that is not empty the pieces are a gap. -/
theorem gap_split (cs : List Char) (hne : (split cs).2 ≠ []) : Gap (concat (split cs).1) (split cs).2 := by
  fun_induction split cs with
  | case1 cs h => exact Gap.nil
  | case2 cs t rest h pieces rest' hs ih =>
    simp only [hs] at ih
    have hc := concat_append_split rest
    simp only [hs] at hc
    refine Gap.cons ?_ (ih hne)
    rcases piece_of_read? cs rest t h with hp | ⟨-, rfl⟩
    · exact hc.symm ▸ hp
    · exact absurd (List.append_eq_nil_iff.mp hc).2 hne

/-- In front of the end of the text the pieces are a last gap. -/
theorem lastGap_split (cs : List Char) (he : (split cs).2 = []) : LastGap (concat (split cs).1) := by
  fun_induction split cs with
  | case1 cs h => exact LastGap.closed Gap.nil
  | case2 cs t rest h pieces rest' hs ih =>
    simp only [hs] at ih
    have hc := concat_append_split rest
    simp only [hs] at hc
    obtain rfl : rest' = [] := he
    rw [List.append_nil] at hc
    have ht := text_append_of_read? cs rest t h
    have e : concat (t :: pieces) = t.text ++ concat pieces := by simp [concat]
    rw [e]
    rcases piece_of_read? cs rest t h with hp | ⟨ho, rfl⟩
    · have hl := ih rfl
      rw [hc] at hl ⊢
      cases hl with
      | closed hg => exact LastGap.closed (Gap.cons (by simpa using hp) hg)
      | opened hg ho =>
        rw [← List.append_assoc]
        exact LastGap.opened (Gap.cons (by simpa using hp) hg) ho
    · rw [hc, List.append_nil, ← List.append_nil t.text, ← ht]
      exact LastGap.opened Gap.nil ho

end Trivia

end MiniLex
