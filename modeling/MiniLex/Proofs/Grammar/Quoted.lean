import MiniLex.Lexeme.Quoted
import MiniLex.Proofs.Grammar.Between

/-!
# String literals in the grammar

`Quoted.split` goes on behind an opening quote exactly as far as the units of the grammar do (`Grammar.Units`): no units go
further than the body (`length_units_le_split`), and a closing quote is found where units are followed by one
(`split_units`).
-/

namespace MiniLex

open Grammar

namespace Quoted

/-- No units begin with a quote, with a line break, or with a backslash that is all there is. -/
theorem not_units_cons {c : Char} {cs : List Char} (h : Units (c :: cs)) :
    c ≠ '"' ∧ c ≠ '\r' ∧ c ≠ '\n' ∧ (c = '\\' → cs ≠ []) := by
  cases h with
  | plain h1 h2 h3 h4 _ => exact ⟨h1, h3, h4, fun h => absurd h h2⟩
  | escapedBreak _ => exact ⟨by decide, by decide, by decide, fun _ => by simp⟩
  | escaped _ => exact ⟨by decide, by decide, by decide, fun _ => by simp⟩

/-- Units in front of a quote are split off there. -/
theorem split_units {body : List Char} (rest : List Char) (h : Units body) :
    split (body ++ '"' :: rest) = ⟨body, .quote, rest⟩ := by
  induction h with
  | nil => rfl
  | @plain c cs h1 h2 h3 h4 _ ih =>
    have hb : isBreak c = false := by
      rw [Bool.eq_false_iff, ne_eq, isBreak_iff]
      exact not_or.mpr ⟨h3, h4⟩
    rw [List.cons_append, split.eq_5 c (cs ++ '"' :: rest) (fun h => h1 h) (fun _ h => absurd h h2)
      (fun _ _ h => absurd h h2), hb, ih]
    rfl
  | @escapedBreak cs _ ih =>
    simp only [List.cons_append, split, ih]
    rfl
  | @escaped c cs hu ih =>
    have hn : ∀ tail, c = '\r' → cs ++ '"' :: rest = '\n' :: tail → False := by
      intro tail _ ht
      cases cs with
      | nil => simp at ht
      | cons d cs => exact (not_units_cons hu).2.2.1 (List.cons.inj ht).1
    rw [List.cons_append, List.cons_append, split.eq_4 c (cs ++ '"' :: rest) hn, ih]
    rfl

/-- Units that the text ends with are all that is split off, with a backslash that is left over behind them if there is one. -/
theorem split_units_end {body dangling : List Char} (h : Units body) (hd : dangling = [] ∨ dangling = ['\\']) :
    split (body ++ dangling) = ⟨body ++ dangling, .endOfText, []⟩ := by
  induction h with
  | nil => rcases hd with rfl | rfl <;> rfl
  | @plain c cs h1 h2 h3 h4 _ ih =>
    have hb : isBreak c = false := by
      rw [Bool.eq_false_iff, ne_eq, isBreak_iff]
      exact not_or.mpr ⟨h3, h4⟩
    rw [List.cons_append, split.eq_5 c (cs ++ dangling) (fun h => h1 h) (fun _ h => absurd h h2)
      (fun _ _ h => absurd h h2), hb, ih]
    rfl
  | @escapedBreak cs _ ih =>
    simp only [List.cons_append, split, ih]
    rfl
  | @escaped c cs hu ih =>
    have hn : ∀ tail, c = '\r' → cs ++ dangling = '\n' :: tail → False := by
      intro tail _ ht
      cases cs with
      | nil =>
        rcases hd with rfl | rfl
        · simp at ht
        · exact absurd (List.cons.inj ht).1 (by decide)
      | cons d cs => exact (not_units_cons hu).2.2.1 (List.cons.inj ht).1
    rw [List.cons_append, List.cons_append, split.eq_4 c (cs ++ dangling) hn, ih]
    rfl

/-- No units that a text begins with go further than the body that is split off. -/
theorem length_units_le_split {units : List Char} (cs : List Char) (h : Units units) (hp : units <+: cs) :
    units.length ≤ (split cs).body.length := by
  fun_induction split cs generalizing units with
  | case1 => simpa using hp.length_le
  | case2 cs =>
    cases units with
    | nil => simp
    | cons c units => exact absurd (List.cons_prefix_cons.mp hp).1 (not_units_cons h).1
  | case3 cs ih =>
    cases h with
    | nil => simp
    | plain _ h2 _ _ _ => exact absurd (List.cons_prefix_cons.mp hp).1 h2
    | @escapedBreak units hu =>
      simp only [List.cons_prefix_cons, true_and] at hp
      have := ih hu hp
      simp only [Split.cons, List.length_cons, List.length_append]
      omega
    | @escaped c units hu =>
      simp only [List.cons_prefix_cons, true_and] at hp
      cases units with
      | nil => simp [Split.cons]
      | cons d units => exact absurd (List.cons_prefix_cons.mp hp.2).1 (not_units_cons hu).2.2.1
  | case4 c cs hn ih =>
    cases h with
    | nil => simp
    | plain _ h2 _ _ _ => exact absurd (List.cons_prefix_cons.mp hp).1 h2
    | @escapedBreak units hu =>
      simp only [List.cons_prefix_cons, true_and] at hp
      obtain ⟨hc, tail, rfl⟩ := hp
      exact (hn (units ++ tail) hc.symm rfl).elim
    | @escaped d units hu =>
      simp only [List.cons_prefix_cons, true_and] at hp
      have := ih hu hp.2
      simp only [Split.cons, List.length_cons, List.length_append]
      omega
  | case5 c cs _ _ _ hb =>
    cases units with
    | nil => simp
    | cons d units =>
      obtain rfl := (List.cons_prefix_cons.mp hp).1
      have hd := not_units_cons h
      rcases (isBreak_iff d).mp hb with hb | hb
      · exact absurd hb hd.2.1
      · exact absurd hb hd.2.2.1
  | case6 c cs _ _ hn _ ih =>
    cases h with
    | nil => simp
    | @plain d units _ _ _ _ hu =>
      simp only [List.cons_prefix_cons] at hp
      have := ih hu hp.2
      simp only [Split.cons, List.length_cons, List.length_append]
      omega
    | @escapedBreak units hu =>
      simp only [List.cons_prefix_cons] at hp
      obtain ⟨hc, tail, rfl⟩ := hp
      exact (hn _ _ hc.symm rfl).elim
    | @escaped d units hu =>
      simp only [List.cons_prefix_cons] at hp
      obtain ⟨hc, tail, rfl⟩ := hp
      exact (hn _ _ hc.symm rfl).elim

/-- The body consists of units, and behind them only a backslash that is the last character of the text can be left. -/
theorem units_split (cs : List Char) : ∃ units dangling, (split cs).body = units ++ dangling ∧ Units units ∧
    (dangling = [] ∨ (dangling = ['\\'] ∧ (split cs).ending = .endOfText)) := by
  fun_induction split cs with
  | case1 => exact ⟨[], [], rfl, Units.nil, Or.inl rfl⟩
  | case2 cs => exact ⟨[], [], rfl, Units.nil, Or.inl rfl⟩
  | case3 cs ih =>
    obtain ⟨units, dangling, hb, hu, hd⟩ := ih
    exact ⟨'\\' :: '\r' :: '\n' :: units, dangling, by simp [Split.cons, hb], Units.escapedBreak hu, hd⟩
  | case4 c cs _ ih =>
    obtain ⟨units, dangling, hb, hu, hd⟩ := ih
    exact ⟨'\\' :: c :: units, dangling, by simp [Split.cons, hb], Units.escaped hu, hd⟩
  | case5 => exact ⟨[], [], rfl, Units.nil, Or.inl rfl⟩
  | case6 c cs hq _ hn hb ih =>
    by_cases hc : c = '\\'
    · cases cs with
      | nil => exact ⟨[], ['\\'], by simp [Split.cons, split, hc], Units.nil, Or.inr ⟨rfl, rfl⟩⟩
      | cons d cs => exact (hn d cs hc rfl).elim
    · obtain ⟨units, dangling, he, hu, hd⟩ := ih
      rw [isBreak_iff, not_or] at hb
      exact ⟨c :: units, dangling, by simp [Split.cons, he], Units.plain hq hc hb.1 hb.2 hu, hd⟩

/-- A literal that is not closed breaks off in front of a line break. -/
theorem rest_of_lineBreak (cs : List Char) (h : (split cs).ending = .lineBreak) :
    ∃ c rest, (split cs).rest = c :: rest ∧ (c = '\r' ∨ c = '\n') := by
  fun_induction split cs with
  | case1 => cases h
  | case2 => cases h
  | case3 cs ih => exact ih h
  | case4 c cs _ ih => exact ih h
  | case5 c cs _ _ _ hb => exact ⟨c, cs, rfl, (isBreak_iff c).mp hb⟩
  | case6 c cs _ _ _ _ ih => exact ih h

/-- A literal that is not closed, and behind which nothing is left, breaks off with the text. -/
theorem rest_of_endOfText (cs : List Char) (h : (split cs).ending = .endOfText) : (split cs).rest = [] := by
  fun_induction split cs with
  | case1 => rfl
  | case2 => cases h
  | case3 cs ih => exact ih h
  | case4 c cs _ ih => exact ih h
  | case5 => cases h
  | case6 c cs _ _ _ _ ih => exact ih h

end Quoted

end MiniLex
