import MiniLex.Lexeme.Basic
import MiniLex.Proofs.Grammar.Quoted

/-!
# Patterns by their first character

Which pattern a text can have is settled by its first character: a letter or underscore, a digit, a quote, or the first
character of an operator or delimiter (`Matches.cons_cases`). The four are disjoint, so each of them leaves one pattern
(`Matches.of_wordStart`, `Matches.of_digit`, `Matches.of_quote`, `Matches.of_other`). Words have the kinds of the grammar.
-/

namespace MiniLex

open Grammar

/-! ## First characters -/

theorem toNat_of_isDigit {c : Char} (h : c.isDigit = true) : 0x30 ≤ c.toNat ∧ c.toNat ≤ 0x39 := by
  simp only [Char.isDigit, Bool.and_eq_true, decide_eq_true_eq, UInt32.le_iff_toNat_le, ge_iff_le] at h
  exact h

/-- A digit begins no word: it comes before the first letter. -/
theorem isWordStart_of_isDigit (c : Char) (h : c.isDigit = true) : isWordStart c = false := by
  have hb := toNat_of_isDigit h
  have ha : isAlphabetic c = false := by
    have hr : alphabeticRanges = (0x0041, 0x005A) :: alphabeticRanges.tail := rfl
    rw [isAlphabetic, hr, inRanges, if_pos (by omega), decide_eq_false_iff_not]
    omega
  have hu : c ≠ '_' := by
    rintro rfl
    exact absurd hb.2 (by decide)
  simp [isWordStart, ha, hu]

/-- A digit may be part of a word: it is in the first of the ranges of numeric characters. -/
theorem isWordPart_of_isDigit {c : Char} (h : c.isDigit = true) : isWordPart c = true := by
  have hb := toNat_of_isDigit h
  have hn : isNumeric c = true := by
    have hr : numericRanges = (0x0030, 0x0039) :: numericRanges.tail := rfl
    rw [isNumeric, hr, inRanges, if_pos hb.2, decide_eq_true_eq]
    exact hb.1
  simp [isWordPart, hn]

/-- No operator or delimiter begins like a word, a number or a string literal, and none is empty. -/
theorem table_first : ∀ entry ∈ Symbol.table, ∃ c cs, entry.1 = c :: cs ∧ isWordStart c = false ∧ c.isDigit = false ∧
    c ≠ '"' := by
  have h : ∀ entry ∈ Symbol.table, entry.1.head?.any (fun c => !isWordStart c && !c.isDigit && c != '"') = true := by
    decide
  intro entry hm
  obtain ⟨c, hc, he⟩ := (Option.any_eq_true _ _).mp (h entry hm)
  obtain ⟨cs, hcs⟩ := List.head?_eq_some_iff.mp hc
  simp only [Bool.and_eq_true, Bool.not_eq_true', bne_iff_ne] at he
  exact ⟨c, cs, hcs, he.1.1, he.1.2, he.2⟩

/-- The operators and delimiters of the table have one or two characters. -/
theorem table_length : ∀ entry ∈ Symbol.table, entry.1.length = 1 ∨ entry.1.length = 2 := by decide

/-- No two entries of the table have the same spelling. -/
theorem table_unique : ∀ a ∈ Symbol.table, ∀ b ∈ Symbol.table, a.1 = b.1 → a.2 = b.2 := by decide

/-- Every entry of the table is an operator or a delimiter as it is spelled. -/
theorem matches_of_mem_table {text : List Char} {kind : Kind} (h : (text, kind) ∈ Symbol.table) : Matches kind text := by
  simp only [Symbol.table, List.mem_append, List.mem_map, Prod.mk.injEq] at h
  rcases h with ⟨o, -, rfl, rfl⟩ | ⟨d, -, rfl, rfl⟩
  · exact Matches.operator o
  · exact Matches.delimiter d

theorem operator_mem_table (o : Operator) : (o.spelling.toList, Kind.operator o) ∈ Symbol.table := by
  cases o <;> decide

theorem delimiter_mem_table (d : Delimiter) : (d.spelling.toList, Kind.delimiter d) ∈ Symbol.table := by
  cases d <;> decide

theorem keyword_mem_all (k : Keyword) : k ∈ Keyword.all := by cases k <;> decide

/-! ## Words -/

theorem ofList_eq_iff (word : List Char) (name : String) : String.ofList word = name ↔ word = name.toList := by
  constructor
  · rintro rfl
    exact String.toList_ofList.symm
  · rintro rfl
    exact String.ofList_toList

/-- A word is read with the kind that the grammar gives it. -/
theorem wordKind_ofWord (word : List Char) : WordKind word (Lexeme.ofWord word).kind := by
  unfold Lexeme.ofWord
  simp only [ofList_eq_iff]
  split
  · next h => exact WordKind.bool (Or.inl h)
  · next ht =>
    split
    · next h => exact WordKind.bool (Or.inr h)
    · next hf =>
      cases hk : Keyword.ofString? (String.ofList word) with
      | none =>
        refine WordKind.identifier ht hf (fun k hw => ?_)
        have hn := List.find?_eq_none.mp hk k (keyword_mem_all k)
        exact hn (beq_iff_eq.mpr ((ofList_eq_iff word k.spelling).mpr hw).symm)
      | some k =>
        unfold Keyword.ofString? at hk
        have hs := List.find?_some hk
        rw [beq_iff_eq] at hs
        obtain rfl := (ofList_eq_iff word k.spelling).mp hs.symm
        exact WordKind.keyword k

/-- The grammar gives a word no other kind than the one it is read with. -/
theorem kind_ofWord_of_wordKind {word : List Char} {kind : Kind} (h : WordKind word kind) :
    (Lexeme.ofWord word).kind = kind := by
  cases h with
  | bool h => rcases h with rfl | rfl <;> rfl
  | keyword k => cases k <;> rfl
  | identifier ht hf hn =>
    have hk : Keyword.ofString? (String.ofList word) = none := by
      refine List.find?_eq_none.mpr (fun k _ hs => hn k ?_)
      exact (ofList_eq_iff word k.spelling).mp (beq_iff_eq.mp hs).symm
    simp only [Lexeme.ofWord, ofList_eq_iff, if_neg ht, if_neg hf, hk]
    rfl

/-! ## Patterns -/

namespace Grammar

theorem Matches.ne_nil {kind : Kind} {text : List Char} (h : Matches kind text) : text ≠ [] := by
  cases h with
  | word => simp
  | int hd => exact hd.1
  | float => simp
  | string => simp
  | operator o => cases o <;> decide
  | delimiter d => cases d <;> decide

/-- The first character of a text settles which patterns it can have. -/
theorem Matches.cons_cases {kind : Kind} {c : Char} {cs : List Char} (h : Matches kind (c :: cs)) :
    (isWordStart c = true ∧ (∀ d ∈ cs, isWordPart d = true) ∧ WordKind (c :: cs) kind) ∨
    (c.isDigit = true ∧ ((kind = .literal .int ∧ Digits (c :: cs)) ∨ (kind = .literal .float ∧
      ∃ whole fraction, Digits whole ∧ Digits fraction ∧ c :: cs = whole ++ '.' :: fraction))) ∨
    (c = '"' ∧ kind = .literal .string ∧ ∃ body, Units body ∧ cs = body ++ ['"']) ∨
    (c :: cs, kind) ∈ Symbol.table := by
  generalize ht : c :: cs = text at h
  cases h with
  | @word c' cs' _ hc hcs hk =>
    obtain ⟨rfl, rfl⟩ := List.cons.inj ht
    refine Or.inl ⟨?_, ?_, hk⟩
    · simpa [isWordStart] using hc
    · intro d hd
      simpa [isWordPart, or_assoc] using hcs d hd
  | int hd =>
    subst ht
    exact Or.inr (Or.inl ⟨hd.2 c (by simp), Or.inl ⟨rfl, hd⟩⟩)
  | @float whole fraction hw hf =>
    refine Or.inr (Or.inl ⟨?_, Or.inr ⟨rfl, whole, fraction, hw, hf, rfl⟩⟩)
    cases whole with
    | nil => exact absurd rfl hw.1
    | cons w whole =>
      obtain rfl := (List.cons.inj ht).1
      exact hw.2 c (by simp)
  | @string body hu =>
    obtain ⟨rfl, rfl⟩ := List.cons.inj ht
    exact Or.inr (Or.inr (Or.inl ⟨rfl, rfl, body, hu, rfl⟩))
  | operator o => exact Or.inr (Or.inr (Or.inr (operator_mem_table o)))
  | delimiter d => exact Or.inr (Or.inr (Or.inr (delimiter_mem_table d)))

/-- A text that begins like a word has the pattern of a word only. -/
theorem Matches.of_wordStart {kind : Kind} {c : Char} {cs : List Char} (h : Matches kind (c :: cs))
    (hc : isWordStart c = true) : (∀ d ∈ cs, isWordPart d = true) ∧ WordKind (c :: cs) kind := by
  rcases h.cons_cases with h | ⟨hd, -⟩ | ⟨rfl, -⟩ | ht
  · exact h.2
  · simp [isWordStart_of_isDigit c hd] at hc
  · exact absurd hc (by decide)
  · obtain ⟨_, _, he, hn, -⟩ := table_first _ ht
    obtain ⟨rfl, -⟩ := List.cons.inj he
    simp [hn] at hc

/-- A text that begins with a digit has the pattern of a number only. -/
theorem Matches.of_digit {kind : Kind} {c : Char} {cs : List Char} (h : Matches kind (c :: cs)) (hc : c.isDigit = true) :
    (kind = .literal .int ∧ Digits (c :: cs)) ∨ (kind = .literal .float ∧
      ∃ whole fraction, Digits whole ∧ Digits fraction ∧ c :: cs = whole ++ '.' :: fraction) := by
  rcases h.cons_cases with ⟨hw, -⟩ | h | ⟨rfl, -⟩ | ht
  · simp [isWordStart_of_isDigit c hc] at hw
  · exact h.2
  · exact absurd hc (by decide)
  · obtain ⟨_, _, he, -, hn, -⟩ := table_first _ ht
    obtain ⟨rfl, -⟩ := List.cons.inj he
    simp [hn] at hc

/-- A text that begins with a quote has the pattern of a string literal only. -/
theorem Matches.of_quote {kind : Kind} {cs : List Char} (h : Matches kind ('"' :: cs)) :
    kind = .literal .string ∧ ∃ body, Units body ∧ cs = body ++ ['"'] := by
  rcases h.cons_cases with ⟨hw, -⟩ | ⟨hd, -⟩ | h | ht
  · exact absurd hw (by decide)
  · exact absurd hd (by decide)
  · exact h.2
  · obtain ⟨_, _, he, -, -, hn⟩ := table_first _ ht
    exact absurd (List.cons.inj he).1.symm hn

/-- A text that begins with anything else is an operator or a delimiter. -/
theorem Matches.of_other {kind : Kind} {c : Char} {cs : List Char} (h : Matches kind (c :: cs)) (hq : c ≠ '"')
    (hw : isWordStart c = false) (hd : c.isDigit = false) : (c :: cs, kind) ∈ Symbol.table := by
  rcases h.cons_cases with ⟨hw', -⟩ | ⟨hd', -⟩ | ⟨hq', -⟩ | ht
  · simp [hw] at hw'
  · simp [hd] at hd'
  · exact absurd hq' hq
  · exact ht

/-- A text with a pattern that another begins with begins with the same character. -/
theorem HasPattern.cons_of_prefix {text cs : List Char} {c : Char} (h : HasPattern text) (hp : text <+: c :: cs) :
    ∃ tail, text = c :: tail ∧ tail <+: cs := by
  obtain ⟨kind, hm⟩ := h
  cases text with
  | nil => exact absurd rfl hm.ne_nil
  | cons d tail =>
    obtain ⟨rfl, ht⟩ := List.cons_prefix_cons.mp hp
    exact ⟨tail, rfl, ht⟩

end Grammar

end MiniLex
