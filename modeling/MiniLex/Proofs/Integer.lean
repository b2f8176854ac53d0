import Mathlib.Data.List.Induction
import Mathlib.Data.Nat.Digits.Defs
import MiniLex.Proofs.Located
import MiniLex.Proofs.Resumed
import MiniLex.Proofs.Separated

/-!
# Whole numbers

A run of digits that is not part of a floating-point number is an integer literal with the very number that it writes in base
ten, or it is refused because that number does not fit in 64 bits (`TakenAsInteger`). However long the run is, the number is
never wrapped, and zeros in front of it change nothing. Every number of 64 bits can be read back from its rendering.
-/

namespace MiniLex

open Grammar

/-! ## Numbers and their digits -/

/-- The number that a run of digits writes in base ten. -/
def numberOf (digits : List Char) : Nat := Nat.ofDigits 10 (digits.reverse.map (fun c => c.toNat - '0'.toNat))

/-- One more digit makes the number of a run of digits ten times as large, and adds the digit. -/
theorem numberOf_concat (digits : List Char) (c : Char) :
    numberOf (digits ++ [c]) = 10 * numberOf digits + (c.toNat - '0'.toNat) := by
  simp only [numberOf, List.reverse_concat, List.map_cons, Nat.ofDigits_cons]
  exact Nat.add_comm _ _

theorem ofDigitChars_eq (digits : List Char) : Nat.ofDigitChars 10 digits 0 = numberOf digits := by
  induction digits using List.reverseRecOn with
  | nil => rfl
  | append_singleton digits c ih =>
    rw [Nat.ofDigitChars_append, ih, numberOf_concat, Nat.ofDigitChars_cons, Nat.ofDigitChars_nil]

/-- Zeros in front of a run of digits do not change its number. -/
theorem numberOf_zeros (count : Nat) (digits : List Char) :
    numberOf (List.replicate count '0' ++ digits) = numberOf digits := by
  have hzero : '0'.toNat - '0'.toNat = 0 := rfl
  rw [numberOf, List.reverse_append, List.reverse_replicate, List.map_append, List.map_replicate, hzero,
    Nat.ofDigits_append_replicate_zero]
  rfl

/-- The digits of a number write it. -/
theorem numberOf_toDigits (n : Nat) : numberOf (Nat.toDigits 10 n) = n := by
  rw [← ofDigitChars_eq, Nat.ofDigitChars_ten_toDigits]

theorem digits_toDigits (n : Nat) : Digits (Nat.toDigits 10 n) := by
  refine ⟨Nat.toDigits_ne_nil, ?_⟩
  intro c hc
  exact Nat.isDigit_of_mem_toDigits (by decide) (by decide) hc

theorem byteLength_digits {digits : List Char} (h : ∀ c ∈ digits, c.isDigit = true) : byteLength digits = digits.length := by
  induction digits with
  | nil => rfl
  | cons c digits ih =>
    have hc : c.val ≤ 127 := by
      have hdigit := h c List.mem_cons_self
      simp only [Char.isDigit, Bool.and_eq_true, decide_eq_true_eq] at hdigit
      exact UInt32.le_trans hdigit.2 (by decide)
    have hsize : c.utf8Size = 1 := if_pos hc
    rw [byteLength, hsize, ih (fun d hd => h d (List.mem_cons_of_mem c hd)), List.length_cons, Nat.add_comm]

/-- A run of digits leads as many bytes and columns on as it has digits. -/
theorem advance_digits (p : Position) {digits : List Char} (h : Digits digits) :
    p.advance digits = ⟨p.offset + digits.length, p.line, p.column + .ofNat digits.length⟩ := by
  have hunbroken : ∀ c ∈ digits, isBreak c = false := by
    intro c hc
    exact not_isBreak_of_not_isBlank (not_isBlank_of_isDigit (h.2 c hc))
  obtain ⟨hline, hcolumn⟩ := advance_of_unbroken p hunbroken
  have hoffset := offset_advance p digits
  rw [byteLength_digits h.2] at hoffset
  rw [← hoffset, ← hline, ← hcolumn]

theorem not_startsBetween_digits {digits : List Char} (h : Digits digits) (rest : List Char) :
    ¬StartsBetween (digits ++ rest) := by
  obtain ⟨c, cs, rfl⟩ := List.exists_cons_of_ne_nil h.1
  have hc := h.2 c List.mem_cons_self
  rw [startsBetween_iff]
  rintro (⟨d, hd, hb⟩ | ⟨d, tail, he, -⟩)
  · obtain rfl : c = d := Option.some.inj hd
    rw [not_isBlank_of_isDigit hc] at hb
    cases hb
  · obtain rfl := (List.cons.inj he).1
    cases hc

/-! ## One run of digits -/

/-- A run of digits is a whole number in front of a text: no digit follows it, and no point with a digit behind it. -/
structure WholeNumber (digits rest : List Char) : Prop where
  run : Digits digits
  maximal : ∀ c, rest.head? = some c → c.isDigit = false
  no_fraction : ∀ c tail, rest = '.' :: c :: tail → c.isDigit = false

/-- What a run of digits is taken as where it begins: the literal of its number, or, if that has no place in 64 bits, an error
token without a value, with a diagnostic. Either is about all of the run. -/
inductive TakenAsInteger (digits : List Char) (start : Position) : Token → Option Diagnostic → Prop where
  | literal {n : UInt64} : n.toNat = numberOf digits →
      TakenAsInteger digits start ⟨.literal .int, String.ofList digits, start.line, start.column,
        ⟨start.offset, start.offset + digits.length⟩, some (.int n)⟩ none
  | refused : 2 ^ 64 ≤ numberOf digits →
      TakenAsInteger digits start ⟨.error .numberOutOfRange, String.ofList digits, start.line, start.column,
        ⟨start.offset, start.offset + digits.length⟩, none⟩
        (some ⟨.numberOutOfRange, start.line, start.column, ⟨start.offset, start.offset + digits.length⟩⟩)

/-- A run of digits is read as the literal of its number, or as an error. -/
theorem Lexeme.ofDigits_cases (digits : List Char) :
    (∃ n : UInt64, n.toNat = numberOf digits ∧ ofDigits digits = ⟨.literal .int, some (.int n), digits⟩) ∨
      2 ^ 64 ≤ numberOf digits ∧ ofDigits digits = ⟨.error .numberOutOfRange, none, digits⟩ := by
  simp only [ofDigits, ofDigitChars_eq]
  by_cases hn : numberOf digits < UInt64.size
  · rw [if_pos hn]
    exact Or.inl ⟨_, UInt64.toNat_ofNat_of_lt' hn, rfl⟩
  · rw [if_neg hn]
    exact Or.inr ⟨Nat.le_of_not_lt hn, rfl⟩

namespace WholeNumber

variable {digits rest : List Char}

/-- A whole number is read in front of its text. -/
theorem read? (h : WholeNumber digits rest) : Lexeme.read? (digits ++ rest) = some (Lexeme.ofDigits digits, rest) := by
  have hread := Lexeme.read?_of_endsBefore (Lexeme.EndsBefore.digits h.run h.maximal h.no_fraction)
  rwa [Lexeme.text_ofDigits] at hread

/-- The step that reads a whole number takes it as an integer, and the scanner goes on right behind it. -/
theorem stepOver (h : WholeNumber digits rest) (s : Scanner) :
    TakenAsInteger digits s.position (s.stepOver (Lexeme.ofDigits digits) rest).token
        (s.stepOver (Lexeme.ofDigits digits) rest).diagnostic ∧
      s.behind (Lexeme.ofDigits digits) rest =
        ⟨s.source, rest, ⟨s.position.offset + digits.length, s.position.line, s.position.column + .ofNat digits.length⟩⟩ := by
  have hstop := advance_digits s.position h.run
  refine ⟨?_, ?_⟩
  · rcases Lexeme.ofDigits_cases digits with ⟨n, hn, he⟩ | ⟨hn, he⟩
    · have htaken := @TakenAsInteger.literal digits s.position n hn
      rw [he, Scanner.stepOver, Scanner.behind, Lexeme.toToken, hstop]
      exact htaken
    · have htaken := @TakenAsInteger.refused digits s.position hn
      rw [he, Scanner.stepOver, Scanner.behind, Lexeme.toToken, hstop]
      exact htaken
  · rw [Scanner.behind, Lexeme.text_ofDigits, hstop]

/-- A whole number that zeros are put in front of is one in front of the same text. -/
theorem zeros (h : WholeNumber digits rest) (count : Nat) : WholeNumber (List.replicate count '0' ++ digits) rest := by
  refine ⟨⟨?_, ?_⟩, h.maximal, h.no_fraction⟩
  · simp [h.run.1]
  · intro c hc
    rcases List.mem_append.mp hc with hc | hc
    · rw [List.eq_of_mem_replicate hc]
      rfl
    · exact h.run.2 c hc

end WholeNumber

/-- Zeros in front of a run of digits change neither what it is taken as nor its value. -/
theorem TakenAsInteger.zeros {digits : List Char} {count : Nat} {start start' : Position} {t t' : Token}
    {report report' : Option Diagnostic} (h : TakenAsInteger digits start t report)
    (h' : TakenAsInteger (List.replicate count '0' ++ digits) start' t' report') :
    t'.kind = t.kind ∧ t'.value = t.value := by
  have hnumber := numberOf_zeros count digits
  cases h with
  | @literal n hn =>
    cases h' with
    | @literal m hm =>
      obtain rfl : m = n := UInt64.toNat_inj.mp (hm.trans (hnumber.trans hn.symm))
      exact ⟨rfl, rfl⟩
    | refused hm =>
      have hlt := n.toNat_lt
      omega
  | refused hn =>
    cases h' with
    | @literal m hm =>
      have hlt := m.toNat_lt
      omega
    | refused hm => exact ⟨rfl, rfl⟩

/-! ## All runs of digits -/

/-- A scanner takes a whole number in front of it as an integer, and goes on right behind it. -/
theorem Scanner.takenAsInteger_next {s : Scanner} {digits rest : List Char} (hrest : s.skip.rest = digits ++ rest)
    (h : WholeNumber digits rest) :
    TakenAsInteger digits s.skip.position s.next.token s.next.diagnostic ∧
      s.next.scanner = ⟨s.source, rest,
        ⟨s.skip.position.offset + digits.length, s.skip.position.line, s.skip.position.column + .ofNat digits.length⟩⟩ := by
  rw [s.next_step _ rest (hrest ▸ h.read?)]
  exact h.stepOver s.skip

/-- A scan takes a whole number where one of its tokens begins as an integer. What comes behind the token is what a scan from
its end gives. -/
theorem takenAsInteger_token {source : String} {before after : List Token} {t : Token} {front digits rest : List Char}
    (htokens : (tokenize source).tokens = before ++ t :: after) (hsource : source.toList = front ++ (digits ++ rest))
    (hstart : t.span.start = byteLength front) (h : WholeNumber digits rest) :
    let behind : Scanner := ⟨source, rest, ⟨t.span.stop, t.line, t.column + .ofNat digits.length⟩⟩
    ∃ reported report, TakenAsInteger digits t.place t report ∧ after = behind.scan.tokens ∧
      reported.length = before.countP Token.isError ∧
      (tokenize source).diagnostics = reported ++ (report.toList ++ behind.scan.diagnostics) := by
  have hne : digits ++ rest ≠ [] := by
    simp [h.run.1]
  obtain ⟨here, l, rest', hmeets, hrest⟩ := Scanner.tokenize_meets_at htokens hsource hne hstart
  have hread := hmeets.read_eq
  rw [hrest, h.read?] at hread
  obtain ⟨rfl, rfl⟩ := Prod.mk.inj (Option.some.inj hread)
  obtain ⟨htaken, hbehind⟩ := h.stepOver here
  have hnext : here.behind (Lexeme.ofDigits digits) rest =
      ⟨source, rest, ⟨t.span.stop, t.line, t.column + .ofNat digits.length⟩⟩ := by
    have hsame : here.source = source := hmeets.source_eq.trans (Scanner.source_ofSource source)
    have hstop : t.span.stop = here.position.offset + digits.length := by
      rw [hmeets.token_eq]
      exact congrArg (fun s : Scanner => s.position.offset) hbehind
    have hline : t.line = here.position.line := congrArg Token.line hmeets.token_eq
    have hcolumn : t.column = here.position.column := congrArg Token.column hmeets.token_eq
    rw [hbehind, hsame, hstop, hline, hcolumn]
  obtain ⟨reported, hlength, hdiagnostics⟩ := hmeets.diagnostics_eq
  have hafter := hmeets.after_eq
  rw [hnext] at hafter hdiagnostics
  refine ⟨reported, _, ?_, hafter, hlength, hdiagnostics⟩
  have hplace : t.place = here.position := congrArg Token.place hmeets.token_eq
  rw [hplace, hmeets.token_eq]
  exact htaken

/-- The rendering of a number of 64 bits is scanned as the one literal of it. -/
theorem tokenize_renderInt (n : UInt64) :
    let text := (Value.int n).render
    (tokenize text).tokens =
        [⟨.literal .int, text, 1, 1, ⟨0, text.length⟩, some (.int n)⟩, .eof ⟨text.length, 1, 1 + .ofNat text.length⟩] ∧
      (tokenize text).diagnostics = [] := by
  intro text
  have htext : text.toList = Nat.toDigits 10 n.toNat := by
    rw [← Nat.toList_repr, ← Nat.toString_eq_repr]
    rfl
  have hdigits := digits_toDigits n.toNat
  have hlexeme : Lexeme.ofDigits (Nat.toDigits 10 n.toNat) = ⟨.literal .int, some (.int n), text.toList⟩ := by
    have hnumber := numberOf_toDigits n.toNat
    rcases Lexeme.ofDigits_cases (Nat.toDigits 10 n.toNat) with ⟨m, hm, he⟩ | ⟨hm, -⟩
    · obtain rfl : m = n := UInt64.toNat_inj.mp (hm.trans hnumber)
      rw [he, htext]
    · have hlt := n.toNat_lt
      omega
  have hnothing : ∀ c, ([] : List Char).head? = some c → c.isDigit = false := by
    intro c hc
    cases hc
  have hends := Lexeme.EndsBefore.digits hdigits hnothing (fun c tail hc => by cases hc)
  rw [hlexeme] at hends
  have hsound : Lexeme.Sound ⟨.literal .int, some (.int n), text.toList⟩ := by
    refine ⟨rfl, ?_, [], hends, ?_⟩
    · rw [htext]
      exact hdigits.1
    · rw [htext]
      exact not_startsBetween_digits hdigits []
  have hstop : Position.first.advance text.toList = ⟨text.length, 1, 1 + .ofNat text.length⟩ := by
    rw [htext, advance_digits _ hdigits, ← htext, String.length_toList]
    simp only [Position.first, Nat.zero_add]
  have htokens := hsound.tokenize_text
  rw [String.ofList_toList, hstop, Lexeme.toToken, String.ofList_toList] at htokens
  exact htokens

/-- Integer literals are exact or refused: a whole number is taken as an integer by every scanner that stands in front of it and
at every token of a source that begins there, and what follows is scanned from its end. Zeros in front of it change neither the
kind nor the value. The rendering of every number of 64 bits is scanned as the literal of it and nothing else. -/
theorem integer_exact_or_refused :
    (∀ (s : Scanner) (digits rest : List Char), s.skip.rest = digits ++ rest → WholeNumber digits rest →
      TakenAsInteger digits s.skip.position s.next.token s.next.diagnostic ∧
      s.next.scanner = ⟨s.source, rest,
        ⟨s.skip.position.offset + digits.length, s.skip.position.line, s.skip.position.column + .ofNat digits.length⟩⟩) ∧
    (∀ (source : String) (before after : List Token) (t : Token) (front digits rest : List Char),
      (tokenize source).tokens = before ++ t :: after → source.toList = front ++ (digits ++ rest) →
      t.span.start = byteLength front → WholeNumber digits rest →
      let behind : Scanner := ⟨source, rest, ⟨t.span.stop, t.line, t.column + .ofNat digits.length⟩⟩
      ∃ reported report, TakenAsInteger digits t.place t report ∧ after = behind.scan.tokens ∧
        reported.length = before.countP Token.isError ∧
        (tokenize source).diagnostics = reported ++ (report.toList ++ behind.scan.diagnostics)) ∧
    (∀ (s s' : Scanner) (count : Nat) (digits rest rest' : List Char), s.skip.rest = digits ++ rest →
      s'.skip.rest = (List.replicate count '0' ++ digits) ++ rest' → WholeNumber digits rest → WholeNumber digits rest' →
      s'.next.token.kind = s.next.token.kind ∧ s'.next.token.value = s.next.token.value) ∧
    ∀ n : UInt64,
      let text := (Value.int n).render
      (tokenize text).tokens =
          [⟨.literal .int, text, 1, 1, ⟨0, text.length⟩, some (.int n)⟩, .eof ⟨text.length, 1, 1 + .ofNat text.length⟩] ∧
        (tokenize text).diagnostics = [] := by
  refine ⟨?_, ?_, ?_, tokenize_renderInt⟩
  · intro s digits rest hrest h
    exact Scanner.takenAsInteger_next hrest h
  · intro source before after t front digits rest htokens hsource hstart h
    exact takenAsInteger_token htokens hsource hstart h
  · intro s s' count digits rest rest' hrest hrest' h h'
    exact (Scanner.takenAsInteger_next hrest h).1.zeros (Scanner.takenAsInteger_next hrest' (h'.zeros count)).1

/-- The first number that has no place in 64 bits is refused in front of two points, and two zeros in front of a seven with a
point behind it leave it a seven. -/
theorem integer_exact_or_refused_limits :
    let large := "18446744073709551616".toList
    let s := Scanner.ofSource "18446744073709551616..5"
    let t : Token := ⟨.literal .int, "007", 1, 3, ⟨2, 5⟩, some (.int 7)⟩
    let behind : Scanner := ⟨"x=007.y", ['.', 'y'], ⟨5, 1, 6⟩⟩
    let seven := Scanner.ofSource "7"
    let padded := Scanner.ofSource "007.y"
    (numberOf large = 2 ^ 64 ∧ WholeNumber large ['.', '.', '5'] ∧
      TakenAsInteger large s.skip.position s.next.token s.next.diagnostic) ∧
    (WholeNumber ['0', '0', '7'] ['.', 'y'] ∧ ∃ reported report, TakenAsInteger ['0', '0', '7'] t.place t report ∧
      [Token.mk (.error (.unexpectedCharacter '.')) "." 1 6 ⟨5, 6⟩ none, ⟨.identifier, "y", 1, 7, ⟨6, 7⟩, none⟩,
        .eof ⟨7, 1, 8⟩] = behind.scan.tokens ∧
      reported.length = 0 ∧ (tokenize "x=007.y").diagnostics = reported ++ (report.toList ++ behind.scan.diagnostics)) ∧
    padded.next.token.kind = seven.next.token.kind ∧ padded.next.token.value = seven.next.token.value := by
  intro large s t behind seven padded
  obtain ⟨hnext, htoken, hzeros, -⟩ := integer_exact_or_refused
  have hdigits : ∀ {digits : List Char}, digits ≠ [] → digits.all Char.isDigit = true → Digits digits :=
    fun hne hall => ⟨hne, List.all_eq_true.mp hall⟩
  have hlarge : WholeNumber large ['.', '.', '5'] := ⟨hdigits (by decide) (by decide), by simp, by simp⟩
  have hseven : WholeNumber ['7'] [] := ⟨hdigits (by decide) (by decide), by simp, by simp⟩
  have hpoint : WholeNumber ['7'] ['.', 'y'] := ⟨hdigits (by decide) (by decide), by simp, by simp⟩
  have hpadded : WholeNumber ['0', '0', '7'] ['.', 'y'] := hpoint.zeros 2
  refine ⟨⟨by decide +kernel, hlarge, (hnext s large _ (by decide +kernel) hlarge).1⟩, ⟨hpadded, ?_⟩, ?_⟩
  · exact htoken "x=007.y" [⟨.identifier, "x", 1, 1, ⟨0, 1⟩, none⟩, ⟨.operator .assign, "=", 1, 2, ⟨1, 2⟩, none⟩] _ t
      ['x', '='] _ _ (by decide +kernel) (by decide +kernel) (by decide +kernel) hpadded
  · exact hzeros seven padded 2 ['7'] [] ['.', 'y'] (by decide +kernel) (by decide +kernel) hseven hpoint

end MiniLex
