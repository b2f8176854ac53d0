import MiniLex.Token.Kind

/-!
# Operators and delimiters

The spelling of an operator may begin with that of another, so the longest one that the text begins with is taken. No
spelling has more than two characters, so it is enough to ask for those with two before those with one.
-/

namespace MiniLex

namespace Symbol

/-- Every operator and delimiter, by its spelling. -/
def table : List (List Char × Kind) :=
  Operator.all.map (fun o => (o.spelling.toList, .operator o)) ++
    Delimiter.all.map (fun d => (d.spelling.toList, .delimiter d))

/-- The operator or delimiter with a spelling of so many characters that a text begins with. -/
def ofLength? (n : Nat) (cs : List Char) : Option (List Char × Kind) :=
  table.find? (fun entry => entry.1.length == n && entry.1.isPrefixOf cs)

/-- The longest operator or delimiter that a text begins with. -/
def read? (cs : List Char) : Option (List Char × Kind) := (ofLength? 2 cs).or (ofLength? 1 cs)

/-- The entry that is found has the length asked for, and the text begins with it. -/
theorem of_ofLength? (n : Nat) (cs spelling : List Char) (kind : Kind) (h : ofLength? n cs = some (spelling, kind)) :
    spelling.length = n ∧ spelling ++ cs.drop spelling.length = cs := by
  have hp := List.find?_some h
  simp only [Bool.and_eq_true, beq_iff_eq, List.isPrefixOf_iff_prefix] at hp
  obtain ⟨hn, rest, rfl⟩ := hp
  exact ⟨hn, by simp⟩

theorem of_read? (cs spelling : List Char) (kind : Kind) (h : read? cs = some (spelling, kind)) :
    spelling ≠ [] ∧ spelling ++ cs.drop spelling.length = cs := by
  suffices hl : 0 < spelling.length ∧ spelling ++ cs.drop spelling.length = cs from
    ⟨List.length_pos_iff.mp hl.1, hl.2⟩
  rcases Option.or_eq_some_iff.mp h with h | ⟨-, h⟩
  · obtain ⟨hn, ht⟩ := of_ofLength? 2 cs spelling kind h
    exact ⟨by omega, ht⟩
  · obtain ⟨hn, ht⟩ := of_ofLength? 1 cs spelling kind h
    exact ⟨by omega, ht⟩

end Symbol

end MiniLex
