import MiniLex.Proofs.Grammar.Pattern

/-!
# Lexemes in the grammar

What `Lexeme.read?` reads is what the grammar says (`Lexeme.reads_of_read?`). There is one lemma for each reader: words,
numbers, string literals, and operators and delimiters.
-/

namespace MiniLex

open Grammar

/-! ## Longest prefixes -/

namespace Grammar

/-- There is one longest prefix. -/
theorem LongestPrefix.unique {P : List Char → Prop} {text other cs : List Char} (h : LongestPrefix P text cs)
    (h' : LongestPrefix P other cs) : text = other := by
  obtain ⟨hp, hc, hm⟩ := h
  obtain ⟨hp', hc', hm'⟩ := h'
  have hl : text.length = other.length := Nat.le_antisymm (hm' text hp hc) (hm other hp' hc')
  exact (List.prefix_of_prefix_length_le hc hc' (Nat.le_of_eq hl)).eq_of_length hl

/-- A word is a truth value, a keyword or an identifier. -/
theorem WordKind.kind_eq {word : List Char} {kind : Kind} (h : WordKind word kind) :
    kind = .literal .bool ∨ (∃ k, kind = .keyword k) ∨ kind = .identifier := by
  cases h with
  | bool => exact Or.inl rfl
  | keyword k => exact Or.inr (Or.inl ⟨k, rfl⟩)
  | identifier => exact Or.inr (Or.inr rfl)

end Grammar

theorem length_le_takeWhile {p : Char → Bool} {text cs : List Char} (h : ∀ c ∈ text, p c = true) (hp : text <+: cs) :
    text.length ≤ (cs.takeWhile p).length := by
  obtain ⟨rest, rfl⟩ := hp
  rw [List.takeWhile_append_of_pos h, List.length_append]
  omega

theorem digits_takeWhile {c : Char} {cs : List Char} (h : c.isDigit = true) : Digits ((c :: cs).takeWhile Char.isDigit) := by
  refine ⟨?_, of_mem_takeWhile⟩
  simp [h]

/-- A floating-point number at the beginning of a text has all the leading digits in front of its point. -/
theorem takeWhile_of_decimal {whole fraction cs : List Char} (hw : Digits whole) (hp : whole ++ '.' :: fraction <+: cs) :
    cs.takeWhile Char.isDigit = whole ∧ '.' :: fraction <+: cs.dropWhile Char.isDigit := by
  obtain ⟨rest, rfl⟩ := hp
  have hd : ∀ d, ('.' :: (fraction ++ rest)).head? = some d → d.isDigit = false := by
    intro d hd
    obtain rfl : '.' = d := by simpa using hd
    rfl
  rw [List.append_assoc, List.cons_append, takeWhile_append_of_stop hw.2 hd, dropWhile_append_of_stop hw.2 hd]
  exact ⟨rfl, rest, rfl⟩

namespace Lexeme

/-! ## Words -/

/-- A word is the longest text with a pattern where one begins. -/
theorem longestPrefix_word {c : Char} (cs : List Char) (hc : isWordStart c = true) :
    LongestPrefix HasPattern (c :: cs.takeWhile isWordPart) (c :: cs) := by
  refine ⟨⟨_, Matches.word ?_ ?_ (wordKind_ofWord _)⟩, ?_, ?_⟩
  · simpa [isWordStart] using hc
  · intro d hd
    simpa [isWordPart, or_assoc] using of_mem_takeWhile d hd
  · exact List.cons_prefix_cons.mpr ⟨rfl, List.takeWhile_prefix _⟩
  · rintro other ho hp
    obtain ⟨tail, rfl, ht⟩ := ho.cons_of_prefix hp
    obtain ⟨kind, hm⟩ := ho
    have := length_le_takeWhile (hm.of_wordStart hc).1 ht
    simp only [List.length_cons]
    omega

/-- A word is read as the grammar says. -/
theorem reads_word {c : Char} (cs : List Char) (hc : isWordStart c = true) :
    Reads (ofWord (c :: cs.takeWhile isWordPart)).kind (c :: cs.takeWhile isWordPart) (cs.dropWhile isWordPart) := by
  have hl := longestPrefix_word cs hc
  have hk := wordKind_ofWord (c :: cs.takeWhile isWordPart)
  obtain ⟨kind, hm⟩ := hl.1
  rw [← kind_ofWord_of_wordKind (hm.of_wordStart hc).2] at hm
  refine Reads.token hm ?_ (fun hi => ?_)
  · rwa [List.cons_append, List.takeWhile_append_dropWhile]
  · rcases hk.kind_eq with he | ⟨k, he⟩ | he <;> simp [he] at hi

/-! ## Numbers -/

/-- A run of digits is a token or out of range. -/
theorem reads_ofDigits {digits rest : List Char} (hd : Digits digits)
    (hl : LongestPrefix HasPattern digits (digits ++ rest)) : Reads (ofDigits digits).kind digits rest := by
  unfold ofDigits
  simp only
  split
  · next hn => exact Reads.token (Matches.int hd) hl (fun _ => hn)
  · next hn => exact Reads.outOfRange (Matches.int hd) hl (Nat.le_of_not_lt hn)

/-- A run of digits is the longest text with a pattern where no point with a digit behind it follows. -/
theorem longestPrefix_digits {c : Char} {cs : List Char} (hc : c.isDigit = true)
    (hf : ∀ fraction, Digits fraction → ¬ '.' :: fraction <+: (c :: cs).dropWhile Char.isDigit) :
    LongestPrefix HasPattern ((c :: cs).takeWhile Char.isDigit) (c :: cs) := by
  refine ⟨⟨_, Matches.int (digits_takeWhile hc)⟩, List.takeWhile_prefix _, ?_⟩
  rintro other ho hp
  obtain ⟨tail, rfl, -⟩ := ho.cons_of_prefix hp
  obtain ⟨kind, hm⟩ := ho
  rcases hm.of_digit hc with ⟨-, hd⟩ | ⟨-, whole, fraction, hw, hfr, he⟩
  · exact length_le_takeWhile hd.2 hp
  · rw [he] at hp
    exact absurd (takeWhile_of_decimal hw hp).2 (hf fraction hfr)

/-- A run of digits in front of a point and a digit is the longest text with a pattern together with all the digits behind the
point. -/
theorem longestPrefix_decimal {c : Char} {cs behind : List Char} (hc : c.isDigit = true)
    (hb : (c :: cs).dropWhile Char.isDigit = '.' :: behind) (hd : Digits (behind.takeWhile Char.isDigit)) :
    LongestPrefix HasPattern ((c :: cs).takeWhile Char.isDigit ++ '.' :: behind.takeWhile Char.isDigit) (c :: cs) := by
  have hcs := List.takeWhile_append_dropWhile (p := Char.isDigit) (l := c :: cs)
  refine ⟨⟨_, Matches.float (digits_takeWhile hc) hd⟩, ?_, ?_⟩
  · have hp : '.' :: behind.takeWhile Char.isDigit <+: '.' :: behind :=
      List.cons_prefix_cons.mpr ⟨rfl, List.takeWhile_prefix _⟩
    have h := (List.prefix_append_right_inj ((c :: cs).takeWhile Char.isDigit)).mpr hp
    rwa [← hb, hcs] at h
  · rintro other ho hp
    obtain ⟨tail, rfl, -⟩ := ho.cons_of_prefix hp
    obtain ⟨kind, hm⟩ := ho
    rcases hm.of_digit hc with ⟨-, hd'⟩ | ⟨-, whole, fraction, hw, hfr, he⟩
    · have := length_le_takeWhile hd'.2 hp
      rw [List.length_append]
      omega
    · rw [he] at hp ⊢
      obtain ⟨hwhole, hp'⟩ := takeWhile_of_decimal hw hp
      rw [hb, List.cons_prefix_cons] at hp'
      have := length_le_takeWhile hfr.2 hp'.2
      simp only [hwhole, List.length_append, List.length_cons]
      omega

/-- A number is read as the grammar says. -/
theorem reads_readNumber {c : Char} (cs : List Char) (hc : c.isDigit = true) :
    Reads (readNumber (c :: cs)).1.kind (readNumber (c :: cs)).1.text (readNumber (c :: cs)).2 := by
  have hw : Digits ((c :: cs).takeWhile Char.isDigit) := digits_takeWhile hc
  have hcs := List.takeWhile_append_dropWhile (p := Char.isDigit) (l := c :: cs)
  unfold readNumber
  simp only
  split
  · next behind hb =>
    split
    · next he =>
      rw [text_ofDigits]
      refine reads_ofDigits hw ?_
      rw [hcs]
      refine longestPrefix_digits hc (fun fraction hf hp => ?_)
      rw [hb, List.cons_prefix_cons] at hp
      have := length_le_takeWhile hf.2 hp.2
      rw [List.isEmpty_iff.mp he] at this
      exact hf.1 (List.length_eq_zero_iff.mp (Nat.le_zero.mp this))
    · next he =>
      have hd : Digits (behind.takeWhile Char.isDigit) := ⟨fun h => he (List.isEmpty_iff.mpr h), of_mem_takeWhile⟩
      refine Reads.token (Matches.float hw hd) ?_ nofun
      have ht : (c :: cs).takeWhile Char.isDigit ++ '.' :: behind.takeWhile Char.isDigit ++
          behind.dropWhile Char.isDigit = c :: cs := by
        rw [List.append_assoc, List.cons_append, List.takeWhile_append_dropWhile, ← hb, hcs]
      simp only [ofDecimal, ht]
      exact longestPrefix_decimal hc hb hd
  · next hn =>
    rw [text_ofDigits]
    refine reads_ofDigits hw ?_
    rw [hcs]
    refine longestPrefix_digits hc (fun fraction _ hp => ?_)
    obtain ⟨rest, hr⟩ := hp
    exact hn (fraction ++ rest) hr.symm

/-! ## String literals -/

/-- A string literal with a closing quote is the only text with a pattern. -/
theorem longestPrefix_quoted {cs : List Char} (hq : (Quoted.split cs).ending = .quote) :
    LongestPrefix HasPattern ('"' :: ((Quoted.split cs).body ++ ['"'])) ('"' :: cs) := by
  obtain ⟨units, dangling, hb, hu, rfl | ⟨-, he⟩⟩ := Quoted.units_split cs
  · rw [List.append_nil] at hb
    have hcs := Quoted.body_append_split cs
    rw [hq, Quoted.Ending.text] at hcs
    refine ⟨⟨_, Matches.string (hb ▸ hu)⟩, ?_, ?_⟩
    · exact List.cons_prefix_cons.mpr ⟨rfl, _, hcs⟩
    · rintro other ho hp
      obtain ⟨tail, rfl, rest, rfl⟩ := ho.cons_of_prefix hp
      obtain ⟨kind, hm⟩ := ho
      obtain ⟨-, body, hu', rfl⟩ := hm.of_quote
      exact Nat.le_of_eq (by rw [List.append_assoc, List.singleton_append, Quoted.split_units rest hu'])
  · rw [hq] at he
    cases he

/-- Without a closing quote there is no text with a pattern. -/
theorem unmatched_quoted {cs : List Char} (hq : (Quoted.split cs).ending ≠ .quote) : Unmatched ('"' :: cs) := by
  rintro text ht hp
  obtain ⟨tail, rfl, rest, rfl⟩ := ht.cons_of_prefix hp
  obtain ⟨kind, hm⟩ := ht
  obtain ⟨-, body, hu, rfl⟩ := hm.of_quote
  rw [List.append_assoc, List.singleton_append, Quoted.split_units rest hu] at hq
  exact hq rfl

/-- A string literal is read as the grammar says. -/
theorem reads_ofQuoted (cs : List Char) :
    Reads (ofQuoted (Quoted.split cs)).kind (ofQuoted (Quoted.split cs)).text (Quoted.split cs).rest := by
  have hcs := Quoted.body_append_split cs
  obtain ⟨units, dangling, hb, hu, hd⟩ := Quoted.units_split cs
  rw [text_ofQuoted]
  cases he : (Quoted.split cs).ending with
  | quote =>
    have hk : (ofQuoted (Quoted.split cs)).kind = .literal .string := by simp [ofQuoted, he]
    have hd : dangling = [] := by simpa [he] using hd
    rw [hd, List.append_nil] at hb
    simp only [he, Quoted.Ending.text] at hcs
    simp only [hk, Quoted.Ending.text]
    refine Reads.token (Matches.string (hb ▸ hu)) ?_ nofun
    rw [List.cons_append, hcs]
    exact longestPrefix_quoted he
  | lineBreak =>
    have hk : (ofQuoted (Quoted.split cs)).kind = .error .brokenString := by simp [ofQuoted, he]
    have hd : dangling = [] := by simpa [he] using hd
    rw [hd, List.append_nil] at hb
    obtain ⟨c, rest, hr, hc⟩ := Quoted.rest_of_lineBreak cs he
    simp only [he, hr, Quoted.Ending.text, List.append_nil] at hcs
    simp only [hk, hr, Quoted.Ending.text, List.append_nil]
    refine Reads.malformed ?_ (Malformed.brokenString ⟨hb ▸ hu, ⟨c :: rest, rfl⟩, ?_⟩ hc)
    · rw [List.cons_append, hcs]
      exact unmatched_quoted (by simp [he])
    · intro other ho hp
      rw [hcs] at hp
      exact Quoted.length_units_le_split cs ho hp
  | endOfText =>
    have hk : (ofQuoted (Quoted.split cs)).kind = .error .endlessString := by simp [ofQuoted, he]
    have hr := Quoted.rest_of_endOfText cs he
    simp only [he, hr, Quoted.Ending.text, List.append_nil] at hcs
    simp only [hk, hr, Quoted.Ending.text, List.append_nil]
    have hn : Unmatched ('"' :: cs) := unmatched_quoted (by simp [he])
    rw [hcs]
    rw [hcs] at hb
    subst hb
    refine Reads.malformed ?_ (Malformed.endlessString hu (hd.imp_right (fun h => h.1)))
    rwa [List.append_nil]

/-! ## Operators and delimiters -/

/-- A text that begins with an entry of the table begins with the entry that is found, or with a shorter one. -/
theorem longestPrefix_symbol {cs spelling : List Char} {kind : Kind} (h : Symbol.read? cs = some (spelling, kind)) :
    (spelling, kind) ∈ Symbol.table ∧ spelling <+: cs ∧
      ∀ entry ∈ Symbol.table, entry.1 <+: cs → entry.1.length ≤ spelling.length := by
  have hs := Symbol.of_read? cs spelling kind h
  have hl : ∀ n, Symbol.ofLength? n cs = some (spelling, kind) → (spelling, kind) ∈ Symbol.table :=
    fun n hn => List.mem_of_find?_eq_some hn
  refine ⟨?_, ⟨_, hs.2⟩, ?_⟩
  · rcases Option.or_eq_some_iff.mp h with h | ⟨-, h⟩
    · exact hl 2 h
    · exact hl 1 h
  · intro entry hm hp
    rcases Option.or_eq_some_iff.mp h with h | ⟨hn, h⟩
    · have := (Symbol.of_ofLength? 2 cs spelling kind h).1
      have := table_length entry hm
      omega
    · have := (Symbol.of_ofLength? 1 cs spelling kind h).1
      have hne := List.find?_eq_none.mp hn entry hm
      simp only [Bool.and_eq_true, beq_iff_eq, List.isPrefixOf_iff_prefix, not_and] at hne
      have := table_length entry hm
      have : entry.1.length ≠ 2 := fun h2 => hne h2 hp
      omega

/-- A text in which no entry of the table is found begins with none. -/
theorem not_prefix_of_symbol {cs : List Char} (h : Symbol.read? cs = none) :
    ∀ entry ∈ Symbol.table, ¬entry.1 <+: cs := by
  obtain ⟨h2, h1⟩ := Option.or_eq_none_iff.mp h
  intro entry hm hp
  have hp' := List.isPrefixOf_iff_prefix.mpr hp
  rcases table_length entry hm with hl | hl
  · exact List.find?_eq_none.mp h1 entry hm (by simp [hl, hp'])
  · exact List.find?_eq_none.mp h2 entry hm (by simp [hl, hp'])

/-- What is left to a symbol is read as the grammar says. -/
theorem reads_readSymbol {c : Char} (cs : List Char) (hq : c ≠ '"') (hw : isWordStart c = false)
    (hd : c.isDigit = false) :
    Reads (readSymbol c cs).1.kind (readSymbol c cs).1.text (readSymbol c cs).2 := by
  have htext := text_append_readSymbol c cs
  unfold readSymbol at *
  split
  · next spelling kind h =>
    simp only [h] at htext
    obtain ⟨hm, hp, hlong⟩ := longestPrefix_symbol h
    have hmatch := matches_of_mem_table hm
    refine Reads.token hmatch ?_ ?_
    · rw [htext]
      refine ⟨⟨kind, hmatch⟩, hp, ?_⟩
      rintro other ho hp'
      obtain ⟨tail, rfl, -⟩ := ho.cons_of_prefix hp'
      obtain ⟨kind', hm'⟩ := ho
      exact hlong _ (hm'.of_other hq hw hd) hp'
    · rintro rfl
      simp [Symbol.table] at hm
  · next h =>
    have hn : Unmatched (c :: cs) := by
      rintro text ht hp
      obtain ⟨tail, rfl, -⟩ := ht.cons_of_prefix hp
      obtain ⟨kind, hm⟩ := ht
      exact not_prefix_of_symbol h _ (hm.of_other hq hw hd) hp
    refine Reads.malformed hn ?_
    unfold LexError.ofStray
    split
    · next hc =>
      subst hc
      exact Malformed.loneAmpersand
    · next hc =>
      split
      · next hc' =>
        subst hc'
        exact Malformed.lonePipe
      · next hc' => exact Malformed.unexpected hq hc hc'

/-! ## Every lexeme -/

/-- Only the end of a text begins with no lexeme. -/
theorem read?_eq_none_iff (cs : List Char) : read? cs = none ↔ cs = [] := by
  unfold read?
  split
  · simp
  · split
    · simp
    · split
      · simp
      · split <;> simp

/-- What is read where a token begins is what the grammar says. -/
theorem reads_of_read? (cs rest : List Char) (l : Lexeme) (h : read? cs = some (l, rest)) :
    Reads l.kind l.text rest := by
  unfold read? at h
  split at h
  · simp at h
  · next c cs =>
    split at h
    · obtain ⟨rfl, rfl⟩ := by simpa using h
      exact reads_ofQuoted cs
    · next hq =>
      split at h
      · next hw =>
        obtain ⟨rfl, rfl⟩ := by simpa using h
        rw [text_ofWord]
        exact reads_word cs hw
      · next hw =>
        rw [Bool.not_eq_true] at hw
        split at h
        · next hd =>
          have hr := reads_readNumber cs hd
          rwa [Option.some.inj h] at hr
        · next hd =>
          rw [Bool.not_eq_true] at hd
          have hr := reads_readSymbol cs hq hw hd
          rwa [Option.some.inj h] at hr

/-- No lexeme is the end of the text. -/
theorem isEof_of_read? (cs rest : List Char) (l : Lexeme) (h : read? cs = some (l, rest)) : l.kind.isEof = false := by
  have hr := reads_of_read? cs rest l h
  generalize l.kind = kind, l.text = text at hr
  cases hr with
  | token hm =>
    cases hm with
    | word _ _ hk => rcases hk.kind_eq with he | ⟨k, he⟩ | he <;> rw [he] <;> rfl
    | _ => rfl
  | outOfRange => rfl
  | malformed => rfl

end Lexeme

end MiniLex
