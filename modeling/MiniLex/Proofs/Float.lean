import MiniLex.Proofs.Integer
import MiniLex.Proofs.Number.Nearest

/-!
# Numbers with a point

Two runs of digits with a point between them are one floating-point literal, however long they are, and its value is the number
nearest to the rational number that they write (`TakenAsFloat`). It is rounded once: digits far behind the last one that a number
can hold still decide which way a middle goes. So a larger rational number never gives a smaller value, and zeros that leave the
rational number as it is leave the value as it is.
-/

namespace MiniLex

open Grammar

/-! ## Decimals and their digits -/

/-- The rational number that digits on both sides of a point write in base ten. -/
def decimalOf (whole fraction : List Char) : ℚ := numberOf whole + numberOf fraction / 10 ^ fraction.length

/-- Two runs of digits in a row: the first one counts as often as the second one has places. -/
theorem numberOf_append (digits more : List Char) :
    numberOf (digits ++ more) = numberOf digits * 10 ^ more.length + numberOf more := by
  rw [numberOf, List.reverse_append, List.map_append, Nat.ofDigits_append, List.length_map, List.length_reverse, Nat.mul_comm,
    Nat.add_comm]
  rfl

theorem numberOf_replicate_zero (count : ℕ) : numberOf (List.replicate count '0') = 0 := by
  have h := numberOf_zeros count []
  rwa [List.append_nil] at h

/-- Without the point the digits write the number in units of the last place. -/
theorem decimalOf_eq (whole fraction : List Char) :
    decimalOf whole fraction = (numberOf (whole ++ fraction) : ℕ) / (10 ^ fraction.length : ℕ) := by
  have hplaces : (10 : ℚ) ^ fraction.length ≠ 0 := by positivity
  rw [decimalOf, numberOf_append, Nat.cast_add, Nat.cast_mul, Nat.cast_pow, Nat.cast_ofNat, add_div,
    mul_div_cancel_right₀ _ hplaces]

theorem decimalOf_nonneg (whole fraction : List Char) : 0 ≤ decimalOf whole fraction := by
  unfold decimalOf
  positivity

/-- Zeros in front of the digits before the point and behind the ones after it write the same. -/
theorem decimalOf_zeros (front behind : ℕ) (whole fraction : List Char) :
    decimalOf (List.replicate front '0' ++ whole) (fraction ++ List.replicate behind '0') = decimalOf whole fraction := by
  have hplaces : (10 : ℚ) ^ behind ≠ 0 := by positivity
  rw [decimalOf, numberOf_zeros, numberOf_append, numberOf_replicate_zero, List.length_append, List.length_replicate,
    Nat.add_zero, Nat.cast_mul, Nat.cast_pow, Nat.cast_ofNat, pow_add, mul_div_mul_right _ _ hplaces, decimalOf]

/-! ## One number with a point -/

/-- Digits with a point between them are a number in front of a text: there are some on both sides, and no digit follows. -/
structure PointNumber (whole fraction rest : List Char) : Prop where
  whole_digits : Digits whole
  fraction_digits : Digits fraction
  maximal : ∀ c, rest.head? = some c → c.isDigit = false

/-- What a number with a point is taken as where it begins: one literal that is about all of it, with the number nearest to the
rational number that it writes. -/
inductive TakenAsFloat (whole fraction : List Char) (start : Position) : Token → Prop where
  | literal {x : Binary64} : x.NearestTo (decimalOf whole fraction) →
      TakenAsFloat whole fraction start ⟨.literal .float, String.ofList (whole ++ '.' :: fraction), start.line, start.column,
        ⟨start.offset, start.offset + (whole.length + 1 + fraction.length)⟩, some (.float x)⟩

/-- The value that digits on both sides of a point are read as is rounded from what they write. -/
theorem Lexeme.ofDecimal_rounded (whole fraction : List Char) :
    ∃ x : Binary64, x.RoundedFrom (decimalOf whole fraction) ∧
      ofDecimal whole fraction = ⟨.literal .float, some (.float x), whole ++ '.' :: fraction⟩ := by
  refine ⟨_, ?_, rfl⟩
  rw [ofDigitChars_eq, decimalOf_eq]
  exact Binary64.roundedFrom_ofRatio _ (Nat.pow_pos (by decide))

/-- A number with a point leads as many bytes and columns on as it has characters. -/
theorem advance_decimal (p : Position) {whole fraction : List Char} (hw : Digits whole) (hf : Digits fraction) :
    p.advance (whole ++ '.' :: fraction) = ⟨p.offset + (whole.length + 1 + fraction.length), p.line,
      p.column + .ofNat (whole.length + 1 + fraction.length)⟩ := by
  have hunbroken : ∀ c ∈ whole ++ '.' :: fraction, isBreak c = false := by
    intro c hc
    rcases List.mem_append.mp hc with hc | hc
    · exact not_isBreak_of_not_isBlank (not_isBlank_of_isDigit (hw.2 c hc))
    · rcases List.mem_cons.mp hc with rfl | hc
      · rfl
      · exact not_isBreak_of_not_isBlank (not_isBlank_of_isDigit (hf.2 c hc))
  obtain ⟨hline, hcolumn⟩ := advance_of_unbroken p hunbroken
  have hoffset := offset_advance p (whole ++ '.' :: fraction)
  have hpoint : '.'.utf8Size = 1 := rfl
  have hbytes : byteLength (whole ++ '.' :: fraction) = whole.length + 1 + fraction.length := by
    rw [byteLength_append, byteLength, byteLength_digits hw.2, byteLength_digits hf.2, hpoint, Nat.add_assoc]
  have hlength : (whole ++ '.' :: fraction).length = whole.length + 1 + fraction.length := by
    rw [List.length_append, List.length_cons]
    omega
  rw [hbytes] at hoffset
  rw [hlength] at hcolumn
  rw [← hoffset, ← hline, ← hcolumn]

namespace PointNumber

variable {whole fraction rest : List Char}

/-- Digits on both sides of a point, with all the digits that follow, are a number. -/
theorem of_digits (hw : Digits whole) (hf : Digits fraction) (tail : List Char) :
    PointNumber whole (fraction ++ tail.takeWhile Char.isDigit) (tail.dropWhile Char.isDigit) := by
  refine ⟨hw, ⟨?_, ?_⟩, not_of_head?_dropWhile⟩
  · simp [hf.1]
  · intro c hc
    rcases List.mem_append.mp hc with hc | hc
    · exact hf.2 c hc
    · exact of_mem_takeWhile c hc

/-- A number with a point is read in front of its text. -/
theorem read? (h : PointNumber whole fraction rest) :
    Lexeme.read? (whole ++ '.' :: (fraction ++ rest)) = some (Lexeme.ofDecimal whole fraction, rest) := by
  have hread := Lexeme.read?_of_endsBefore (Lexeme.EndsBefore.decimal h.whole_digits h.fraction_digits h.maximal)
  have htext : (Lexeme.ofDecimal whole fraction).text ++ rest = whole ++ '.' :: (fraction ++ rest) := by
    simp [Lexeme.ofDecimal]
  rwa [htext] at hread

/-- The step that reads a number with a point takes it as a floating-point literal and reports nothing, and the scanner goes
on right behind it. -/
theorem stepOver (h : PointNumber whole fraction rest) (s : Scanner) :
    TakenAsFloat whole fraction s.position (s.stepOver (Lexeme.ofDecimal whole fraction) rest).token ∧
      (s.stepOver (Lexeme.ofDecimal whole fraction) rest).diagnostic = none ∧
      s.behind (Lexeme.ofDecimal whole fraction) rest =
        ⟨s.source, rest, ⟨s.position.offset + (whole.length + 1 + fraction.length), s.position.line,
          s.position.column + .ofNat (whole.length + 1 + fraction.length)⟩⟩ := by
  have hstop := advance_decimal s.position h.whole_digits h.fraction_digits
  obtain ⟨x, hx, he⟩ := Lexeme.ofDecimal_rounded whole fraction
  have htaken := @TakenAsFloat.literal whole fraction s.position x (hx.nearestTo (decimalOf_nonneg whole fraction))
  refine ⟨?_, ?_, ?_⟩
  · rw [he, Scanner.stepOver, Scanner.behind, Lexeme.toToken, hstop]
    exact htaken
  · rw [he]
    rfl
  · rw [he, Scanner.behind, hstop]

/-- A number with a point that zeros are put around is one in front of the same text. -/
theorem zeros (h : PointNumber whole fraction rest) (front behind : ℕ) :
    PointNumber (List.replicate front '0' ++ whole) (fraction ++ List.replicate behind '0') rest := by
  have hzero : ∀ count, ∀ c ∈ List.replicate count '0', c.isDigit = true := by
    intro count c hc
    rw [List.eq_of_mem_replicate hc]
    rfl
  refine ⟨⟨?_, ?_⟩, ⟨?_, ?_⟩, h.maximal⟩
  · simp [h.whole_digits.1]
  · intro c hc
    exact (List.mem_append.mp hc).elim (hzero front c) (h.whole_digits.2 c)
  · simp [h.fraction_digits.1]
  · intro c hc
    exact (List.mem_append.mp hc).elim (h.fraction_digits.2 c) (hzero behind c)

end PointNumber

/-- Zeros in front of a number with a point and behind it leave the value as it is. -/
theorem TakenAsFloat.zeros {whole fraction : List Char} {front behind : ℕ} {start start' : Position} {t t' : Token}
    (h : TakenAsFloat whole fraction start t)
    (h' : TakenAsFloat (List.replicate front '0' ++ whole) (fraction ++ List.replicate behind '0') start' t') :
    t'.value = t.value := by
  cases h with
  | literal hx =>
    cases h' with
    | literal hy =>
      rw [decimalOf_zeros] at hy
      rw [hx.unique hy]

/-- A larger number with a point never has a smaller value. -/
theorem TakenAsFloat.mono {whole fraction whole' fraction' : List Char} {start start' : Position} {t t' : Token}
    (h : TakenAsFloat whole fraction start t) (h' : TakenAsFloat whole' fraction' start' t')
    (hle : decimalOf whole fraction ≤ decimalOf whole' fraction') :
    ∃ x y, t.value = some (.float x) ∧ t'.value = some (.float y) ∧ x.AtMost y ∧ x.bits ≤ y.bits := by
  cases h with
  | @literal x hx =>
    cases h' with
    | @literal y hy => exact ⟨x, y, rfl, rfl, hx.mono hy (decimalOf_nonneg whole fraction) hle⟩

/-! ## All numbers with a point -/

/-- A scanner takes a number with a point in front of it as a floating-point literal, and goes on right behind it. -/
theorem Scanner.takenAsFloat_next {s : Scanner} {whole fraction rest : List Char}
    (hrest : s.skip.rest = whole ++ '.' :: (fraction ++ rest)) (h : PointNumber whole fraction rest) :
    TakenAsFloat whole fraction s.skip.position s.next.token ∧ s.next.diagnostic = none ∧
      s.next.scanner = ⟨s.source, rest, ⟨s.skip.position.offset + (whole.length + 1 + fraction.length), s.skip.position.line,
        s.skip.position.column + .ofNat (whole.length + 1 + fraction.length)⟩⟩ := by
  rw [s.next_step _ rest (hrest ▸ h.read?)]
  exact h.stepOver s.skip

/-- A scan takes a number with a point where one of its tokens begins as a floating-point literal. What comes behind the token
is what a scan from its end gives. -/
theorem takenAsFloat_token {source : String} {before after : List Token} {t : Token} {front whole fraction rest : List Char}
    (htokens : (tokenize source).tokens = before ++ t :: after)
    (hsource : source.toList = front ++ (whole ++ '.' :: (fraction ++ rest))) (hstart : t.span.start = byteLength front)
    (h : PointNumber whole fraction rest) :
    let behind : Scanner := ⟨source, rest, ⟨t.span.stop, t.line, t.column + .ofNat (whole.length + 1 + fraction.length)⟩⟩
    ∃ reported, TakenAsFloat whole fraction t.place t ∧ after = behind.scan.tokens ∧
      reported.length = before.countP Token.isError ∧
      (tokenize source).diagnostics = reported ++ behind.scan.diagnostics := by
  have hne : whole ++ '.' :: (fraction ++ rest) ≠ [] := by
    simp [h.whole_digits.1]
  obtain ⟨here, l, rest', hmeets, hrest⟩ := Scanner.tokenize_meets_at htokens hsource hne hstart
  have hread := hmeets.read_eq
  rw [hrest, h.read?] at hread
  obtain ⟨rfl, rfl⟩ := Prod.mk.inj (Option.some.inj hread)
  obtain ⟨htaken, hquiet, hbehind⟩ := h.stepOver here
  have hnext : here.behind (Lexeme.ofDecimal whole fraction) rest =
      ⟨source, rest, ⟨t.span.stop, t.line, t.column + .ofNat (whole.length + 1 + fraction.length)⟩⟩ := by
    have hsame : here.source = source := hmeets.source_eq.trans (Scanner.source_ofSource source)
    have hstop : t.span.stop = here.position.offset + (whole.length + 1 + fraction.length) := by
      rw [hmeets.token_eq]
      exact congrArg (fun s : Scanner => s.position.offset) hbehind
    have hline : t.line = here.position.line := congrArg Token.line hmeets.token_eq
    have hcolumn : t.column = here.position.column := congrArg Token.column hmeets.token_eq
    rw [hbehind, hsame, hstop, hline, hcolumn]
  obtain ⟨reported, hlength, hdiagnostics⟩ := hmeets.diagnostics_eq
  have hafter := hmeets.after_eq
  rw [hquiet, hnext, Option.toList_none, List.nil_append] at hdiagnostics
  rw [hnext] at hafter
  refine ⟨reported, ?_, hafter, hlength, hdiagnostics⟩
  have hplace : t.place = here.position := congrArg Token.place hmeets.token_eq
  rw [hplace, hmeets.token_eq]
  exact htaken

/-- Floating-point literals are rounded correctly: digits on both sides of a point are, with all the digits that follow, taken as
one literal with the number nearest to what they write, by every scanner that stands in front of them and at every token of a
source that begins there, without a diagnostic, and what follows is scanned from its end. A larger number with a point never has a
smaller value, and zeros in front of it and behind it leave the value as it is. -/
theorem float_nearest :
    (∀ (s : Scanner) (whole fraction tail : List Char), s.skip.rest = whole ++ '.' :: (fraction ++ tail) →
      Digits whole → Digits fraction →
      let longest := fraction ++ tail.takeWhile Char.isDigit
      PointNumber whole longest (tail.dropWhile Char.isDigit) ∧
      TakenAsFloat whole longest s.skip.position s.next.token ∧ s.next.diagnostic = none ∧
      s.next.scanner = ⟨s.source, tail.dropWhile Char.isDigit, ⟨s.skip.position.offset + (whole.length + 1 + longest.length),
        s.skip.position.line, s.skip.position.column + .ofNat (whole.length + 1 + longest.length)⟩⟩) ∧
    (∀ (source : String) (before after : List Token) (t : Token) (front whole fraction rest : List Char),
      (tokenize source).tokens = before ++ t :: after → source.toList = front ++ (whole ++ '.' :: (fraction ++ rest)) →
      t.span.start = byteLength front → PointNumber whole fraction rest →
      let behind : Scanner := ⟨source, rest, ⟨t.span.stop, t.line, t.column + .ofNat (whole.length + 1 + fraction.length)⟩⟩
      ∃ reported, TakenAsFloat whole fraction t.place t ∧ after = behind.scan.tokens ∧
        reported.length = before.countP Token.isError ∧
        (tokenize source).diagnostics = reported ++ behind.scan.diagnostics) ∧
    (∀ (s s' : Scanner) (whole fraction rest whole' fraction' rest' : List Char),
      s.skip.rest = whole ++ '.' :: (fraction ++ rest) → s'.skip.rest = whole' ++ '.' :: (fraction' ++ rest') →
      PointNumber whole fraction rest → PointNumber whole' fraction' rest' →
      decimalOf whole fraction ≤ decimalOf whole' fraction' →
      ∃ x y, s.next.token.value = some (.float x) ∧ s'.next.token.value = some (.float y) ∧ x.AtMost y ∧ x.bits ≤ y.bits) ∧
    ∀ (s s' : Scanner) (front behind : ℕ) (whole fraction rest rest' : List Char),
      s.skip.rest = whole ++ '.' :: (fraction ++ rest) →
      s'.skip.rest = (List.replicate front '0' ++ whole) ++ '.' :: ((fraction ++ List.replicate behind '0') ++ rest') →
      PointNumber whole fraction rest → PointNumber whole fraction rest' →
      s'.next.token.value = s.next.token.value := by
  refine ⟨?_, ?_, ?_, ?_⟩
  · intro s whole fraction tail hrest hw hf longest
    have h := PointNumber.of_digits hw hf tail
    refine ⟨h, Scanner.takenAsFloat_next ?_ h⟩
    rw [hrest, List.append_assoc, List.takeWhile_append_dropWhile]
  · intro source before after t front whole fraction rest htokens hsource hstart h
    exact takenAsFloat_token htokens hsource hstart h
  · intro s s' whole fraction rest whole' fraction' rest' hrest hrest' h h' hle
    exact (Scanner.takenAsFloat_next hrest h).1.mono (Scanner.takenAsFloat_next hrest' h').1 hle
  · intro s s' front behind whole fraction rest rest' hrest hrest' h h'
    exact (Scanner.takenAsFloat_next hrest h).1.zeros (Scanner.takenAsFloat_next hrest' (h'.zeros front behind)).1

/-- Digits far behind the middle between two numbers round it up; a tenth is a literal of its nearest number in front of a point;
a tenth is not above what its digits and a one far behind them write; and zeros around one and a half leave it as it is. -/
theorem float_nearest_tenth :
    let whole := "9007199254740993".toList
    let s := Scanner.ofSource "9007199254740993.00000000000000000001+1"
    let t : Token := ⟨.literal .float, "0.1", 1, 3, ⟨2, 5⟩, some (.float ⟨0x3FB999999999999A⟩)⟩
    let behind : Scanner := ⟨"x=0.1.y", ['.', 'y'], ⟨5, 1, 6⟩⟩
    let tenth := Scanner.ofSource "0.1"
    let above := Scanner.ofSource " 0.100000000000000000001;"
    let plain := Scanner.ofSource "1.5"
    let padded := Scanner.ofSource "001.500."
    (Digits whole ∧ TakenAsFloat whole "00000000000000000001".toList s.skip.position s.next.token ∧
      s.next.token.value = some (.float ⟨0x4340000000000001⟩)) ∧
    (PointNumber ['0'] ['1'] ['.', 'y'] ∧ ∃ reported, TakenAsFloat ['0'] ['1'] t.place t ∧
      [Token.mk (.error (.unexpectedCharacter '.')) "." 1 6 ⟨5, 6⟩ none, ⟨.identifier, "y", 1, 7, ⟨6, 7⟩, none⟩,
        .eof ⟨7, 1, 8⟩] = behind.scan.tokens ∧
      reported.length = 0 ∧ (tokenize "x=0.1.y").diagnostics = reported ++ behind.scan.diagnostics) ∧
    (decimalOf ['0'] ['1'] ≤ decimalOf ['0'] "100000000000000000001".toList ∧
      ∃ x y, tenth.next.token.value = some (.float x) ∧ above.next.token.value = some (.float y) ∧ x.AtMost y ∧
        x.bits ≤ y.bits) ∧
    padded.next.token.value = plain.next.token.value := by
  intro whole s t behind tenth above plain padded
  obtain ⟨hnext, htoken, hmono, hzeros⟩ := float_nearest
  have hdigits : ∀ {digits : List Char}, digits ≠ [] → digits.all Char.isDigit = true → Digits digits :=
    fun hne hall => ⟨hne, List.all_eq_true.mp hall⟩
  have hwhole : Digits whole := hdigits (by decide) (by decide)
  have hzero : Digits ['0'] := hdigits (by decide) (by decide)
  have hone : Digits ['1'] := hdigits (by decide) (by decide)
  have htenth : PointNumber ['0'] ['1'] [] := PointNumber.of_digits hzero hone []
  have hhalf : Digits ['5'] := hdigits (by decide) (by decide)
  have hplain : PointNumber ['1'] ['5'] [] := PointNumber.of_digits hone hhalf []
  have hdense : PointNumber ['0'] "100000000000000000001".toList [';'] := ⟨hzero, hdigits (by decide) (by decide), by simp⟩
  have hle : decimalOf ['0'] ['1'] ≤ decimalOf ['0'] "100000000000000000001".toList := by decide +kernel
  refine ⟨⟨hwhole, ?_, by decide +kernel⟩, ⟨PointNumber.of_digits hzero hone ['.', 'y'], ?_⟩, ⟨hle, ?_⟩, ?_⟩
  · exact (hnext s whole ['0'] "0000000000000000001+1".toList (by decide +kernel) hwhole hzero).2.1
  · exact htoken "x=0.1.y" [⟨.identifier, "x", 1, 1, ⟨0, 1⟩, none⟩, ⟨.operator .assign, "=", 1, 2, ⟨1, 2⟩, none⟩] _ t
      ['x', '='] _ _ _ (by decide +kernel) (by decide +kernel) (by decide +kernel)
      (PointNumber.of_digits hzero hone ['.', 'y'])
  · exact hmono tenth above ['0'] ['1'] [] _ _ _ (by decide +kernel) (by decide +kernel) htenth hdense hle
  · exact hzeros plain padded 2 2 ['1'] ['5'] [] ['.'] (by decide +kernel) (by decide +kernel) hplain
      (PointNumber.of_digits hone hhalf ['.'])

end MiniLex
