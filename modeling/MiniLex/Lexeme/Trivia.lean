import MiniLex.Character.Class

/-!
# What stands between tokens

Blanks and comments separate tokens and are none themselves. A line comment goes on to the next line break, which is not
part of it. A block comment goes on to the first closing mark behind its opening mark and does not nest; one that is never
closed takes the rest of the text, and that is no error.
-/

namespace MiniLex

/-- A piece of text between tokens. A comment is given by its text without the marks. -/
inductive Trivia where
  | blank (c : Char)
  | lineComment (body : List Char)
  | blockComment (body : List Char)
  | openComment (body : List Char)
  deriving DecidableEq

/-- Splits a text at its first closing mark of a block comment. -/
def splitAtClosing? : List Char → Option (List Char × List Char)
  | [] => none
  | '*' :: '/' :: cs => some ([], cs)
  | c :: cs => (splitAtClosing? cs).map (fun (body, rest) => (c :: body, rest))

namespace Trivia

/-- The piece as written. -/
def text : Trivia → List Char
  | .blank c => [c]
  | .lineComment body => '/' :: '/' :: body
  | .blockComment body => '/' :: '*' :: (body ++ ['*', '/'])
  | .openComment body => '/' :: '*' :: body

/-- Several pieces as written. -/
def concat (pieces : List Trivia) : List Char := pieces.flatMap text

/-- The piece that a text begins with, if it begins with one, and the text behind it. -/
def read? : List Char → Option (Trivia × List Char)
  | '/' :: '/' :: cs =>
    some (.lineComment (cs.takeWhile (fun c => !isBreak c)), cs.dropWhile (fun c => !isBreak c))
  | '/' :: '*' :: cs =>
    match splitAtClosing? cs with
    | some (body, rest) => some (.blockComment body, rest)
    | none => some (.openComment cs, [])
  | c :: cs => if isBlank c then some (.blank c, cs) else none
  | [] => none

end Trivia

/-- What a text is split into at its first closing mark makes it up. -/
theorem eq_of_splitAtClosing? (cs body rest : List Char) (h : splitAtClosing? cs = some (body, rest)) :
    cs = body ++ '*' :: '/' :: rest := by
  fun_induction splitAtClosing? cs generalizing body rest with
  | case1 => simp at h
  | case2 cs =>
    obtain ⟨rfl, rfl⟩ : [] = body ∧ cs = rest := by simpa using h
    rfl
  | case3 c cs _ ih =>
    obtain ⟨⟨b, r⟩, hb, hr⟩ := Option.map_eq_some_iff.mp h
    obtain ⟨rfl, rfl⟩ : c :: b = body ∧ r = rest := by simpa using hr
    simp [ih b r hb]

namespace Trivia

/-- The piece that a text begins with and the text behind it make it up. -/
theorem text_append_of_read? (cs rest : List Char) (t : Trivia) (h : read? cs = some (t, rest)) :
    cs = t.text ++ rest := by
  unfold read? at h
  split at h
  · obtain ⟨rfl, rfl⟩ := by simpa using h
    simp [text]
  · split at h
    · next hs =>
      obtain ⟨rfl, rfl⟩ := by simpa using h
      simp [text, eq_of_splitAtClosing? _ _ _ hs]
    · obtain ⟨rfl, rfl⟩ := by simpa using h
      simp [text]
  · split at h
    · obtain ⟨rfl, rfl⟩ := by simpa using h
      rfl
    · simp at h
  · simp at h

theorem text_ne_nil (t : Trivia) : t.text ≠ [] := by cases t <;> simp [text]

theorem length_lt_of_read? (cs rest : List Char) (t : Trivia) (h : read? cs = some (t, rest)) :
    rest.length < cs.length := by
  have ht := List.length_pos_iff.mpr t.text_ne_nil
  rw [text_append_of_read? cs rest t h, List.length_append]
  omega

/-- The pieces that a text begins with, as many as there are, and the text behind them. -/
def split (cs : List Char) : List Trivia × List Char :=
  match _h : read? cs with
  | none => ([], cs)
  | some (t, rest) =>
    let (pieces, rest') := split rest
    (t :: pieces, rest')
termination_by cs.length
decreasing_by exact length_lt_of_read? cs rest t ‹_›

/-- The pieces that a text begins with and the text behind them make it up. -/
theorem concat_append_split (cs : List Char) : concat (split cs).1 ++ (split cs).2 = cs := by
  fun_induction split cs with
  | case1 cs h => rfl
  | case2 cs t rest h pieces rest' hs ih =>
    rw [text_append_of_read? cs rest t h]
    simp only [hs] at ih
    simp [concat, ← ih]

end Trivia

end MiniLex
