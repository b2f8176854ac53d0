import MiniLex.Proofs.Number.Shortest

/-!
# Values read back

The value of a floating-point literal is zero or positive. Where it is zero or lies between 0.0001 and ten quadrillion, it is
rendered as digits on both sides of a point, and a scan of the rendering gives one floating-point literal with the same bits. The
rendering may be another decimal than the one that was scanned, since it is the shortest one.
-/

namespace MiniLex

open Grammar

/-- Digits on both sides of a point are scanned as one literal with the number that they are rounded to, and nothing else. -/
theorem tokenize_decimal {x : Binary64} {whole fraction : List Char} {text : String} (hw : Digits whole) (hf : Digits fraction)
    (htext : text.toList = whole ++ '.' :: fraction) (hx : x.RoundedFrom (decimalOf whole fraction)) :
    (tokenize text).tokens =
        [⟨.literal .float, text, 1, 1, ⟨0, text.length⟩, some (.float x)⟩, .eof ⟨text.length, 1, 1 + .ofNat text.length⟩] ∧
      (tokenize text).diagnostics = [] := by
  obtain ⟨y, hy, hlexeme⟩ := Lexeme.ofDecimal_rounded whole fraction
  obtain rfl := hy.unique hx
  have hnothing : ∀ c, ([] : List Char).head? = some c → c.isDigit = false := by
    intro c hc
    cases hc
  have hends := Lexeme.EndsBefore.decimal hw hf hnothing
  rw [hlexeme, ← htext] at hends
  have hsound : Lexeme.Sound ⟨.literal .float, some (.float y), text.toList⟩ := by
    refine ⟨rfl, ?_, [], hends, ?_⟩
    · rw [htext]
      simp
    · rw [List.append_nil, htext]
      exact not_startsBetween_digits hw _
  have hlength : text.length = whole.length + 1 + fraction.length := by
    rw [← String.length_toList, htext, List.length_append, List.length_cons]
    omega
  have hstop : Position.first.advance text.toList = ⟨text.length, 1, 1 + .ofNat text.length⟩ := by
    rw [htext, advance_decimal _ hw hf, ← hlength]
    simp only [Position.first, Nat.zero_add]
  have htokens := hsound.tokenize_text
  rw [String.ofList_toList, hstop, Lexeme.toToken, String.ofList_toList] at htokens
  exact htokens

theorem Grammar.WordKind.not_float {word : List Char} {kind : Kind} (h : WordKind word kind) : kind ≠ .literal .float := by
  rintro rfl
  cases h

/-- A lexeme that is a floating-point literal is digits on both sides of a point. -/
theorem Lexeme.EndsBefore.float {l : Lexeme} {rest : List Char} (h : l.EndsBefore rest) (hk : l.kind = .literal .float) :
    ∃ whole fraction, l = ofDecimal whole fraction := by
  cases h with
  | @word c cs _ _ _ _ => exact absurd hk (wordKind_ofWord (c :: cs)).not_float
  | @digits digits _ _ _ _ =>
    rcases ofDigits_cases digits with ⟨n, -, he⟩ | ⟨-, he⟩
    · rw [he] at hk
      cases hk
    · rw [he] at hk
      cases hk
  | @decimal whole fraction _ _ _ _ => exact ⟨whole, fraction, rfl⟩
  | @symbol spelling _ kind hm _ =>
    have hsymbols : ∀ known ∈ Symbol.table, known.2 ≠ .literal .float := by decide
    exact absurd hk (hsymbols _ hm)
  | _ => cases hk

/-- The value of a floating-point literal is a number without a sign. -/
theorem value_of_float {source : String} {t : Token} (ht : t ∈ (tokenize source).tokens) (hk : t.kind = .literal .float) :
    ∃ x : Binary64, t.value = some (.float x) ∧ x.isNegative = false := by
  have hsound := Token.sound_toLexeme ht (by rw [Token.isError, hk]; rfl) (by rw [Token.isEof, hk]; rfl)
  obtain ⟨-, -, rest, hends, -⟩ := hsound
  obtain ⟨whole, fraction, hl⟩ := hends.float hk
  obtain ⟨x, hx, he⟩ := Lexeme.ofDecimal_rounded whole fraction
  have hvalue : t.value = some (.float x) := congrArg Lexeme.value (hl.trans he)
  exact ⟨x, hvalue, (hx.nearestTo (decimalOf_nonneg whole fraction)).isNegative_eq⟩

/-- Rendered floating-point values read back: the value of every floating-point literal that is zero, or from 0.0001 up to ten
quadrillion, is rendered as digits on both sides of a point, and the rendering is scanned as one floating-point literal with the
same bits and nothing else. -/
theorem float_read_back (source : String) (t : Token) (ht : t ∈ (tokenize source).tokens) (hk : t.kind = .literal .float) :
    ∃ x : Binary64, t.value = some (.float x) ∧
      (x.value = 0 ∨ 1 / 10 ^ 4 ≤ x.value ∧ x.value < 10 ^ 16 →
        let text := (Value.float x).render
        (∃ whole fraction, Digits whole ∧ Digits fraction ∧ text.toList = whole ++ '.' :: fraction) ∧
        (tokenize text).tokens =
          [⟨.literal .float, text, 1, 1, ⟨0, text.length⟩, some (.float x)⟩, .eof ⟨text.length, 1, 1 + .ofNat text.length⟩] ∧
        (tokenize text).diagnostics = []) := by
  obtain ⟨x, hvalue, hs⟩ := value_of_float ht hk
  refine ⟨x, hvalue, ?_⟩
  intro hrange text
  obtain ⟨whole, fraction, hw, hfraction, htext, hx⟩ := Binary64.render_plain hs hrange
  exact ⟨⟨whole, fraction, hw, hfraction, htext⟩, tokenize_decimal hw hfraction htext hx⟩

/-- A third, scanned with more digits than it can hold, is rendered with fewer and read back. -/
theorem float_read_back_third :
    let source := "x = 0.33333333333333333333;"
    let third : Binary64 := ⟨0x3FD5555555555555⟩
    let t : Token := ⟨.literal .float, "0.33333333333333333333", 1, 5, ⟨4, 26⟩, some (.float third)⟩
    t ∈ (tokenize source).tokens ∧ (1 / 10 ^ 4 ≤ third.value ∧ third.value < 10 ^ 16) ∧
      (Value.float third).render = "0.3333333333333333" ∧
      (tokenize "0.3333333333333333").tokens =
        [⟨.literal .float, "0.3333333333333333", 1, 1, ⟨0, 18⟩, some (.float third)⟩, .eof ⟨18, 1, 19⟩] := by
  intro source third t
  have ht : t ∈ (tokenize source).tokens := by decide +kernel
  have hrange : 1 / 10 ^ 4 ≤ third.value ∧ third.value < 10 ^ 16 := by decide +kernel
  have hrender : (Value.float third).render = "0.3333333333333333" := by decide +kernel
  obtain ⟨x, hvalue, hback⟩ := float_read_back source t ht rfl
  obtain rfl : third = x := Value.float.inj (Option.some.inj hvalue)
  obtain ⟨-, htokens, -⟩ := hback (Or.inr hrange)
  rw [hrender] at htokens
  exact ⟨ht, hrange, hrender, htokens⟩

end MiniLex
