import Mathlib.Algebra.Order.Field.Power
import MiniLex.Number.Layout
import MiniLex.Proofs.Float

/-!
# Written numbers

The decimal that a number is written as is rounded to the number again, whether it was found on a grid of up to seventeen digits
or is exact (`Binary64.roundedFrom_shortest`). Its first digit is not zero, so the place of that digit says between which powers
of ten it lies (`Decimal.Normal`), and it lies between the same ones as the number as far as the layout asks. So zero and the
numbers from 0.0001 up to ten quadrillion are written out in full, as digits on both sides of a point (`render_plain`).
-/

namespace MiniLex

open Grammar

/-! ## Decimals -/

/-- A number with some digits is below the power of ten that has one more. -/
theorem numberOf_lt {digits : List Char} (h : ∀ c ∈ digits, c.isDigit = true) : numberOf digits < 10 ^ digits.length := by
  induction digits using List.reverseRecOn with
  | nil => decide
  | append_singleton digits c ih =>
    have hlow := ih (fun d hd => h d (List.mem_append_left _ hd))
    have hc := toNat_of_isDigit (h c (List.mem_append_right _ List.mem_cons_self))
    have hzero : '0'.toNat = 48 := rfl
    rw [numberOf_concat, List.length_append, List.length_singleton, Nat.pow_succ]
    omega

/-- A positive number is not below the power of ten with as many digits as it has itself. -/
theorem pow_length_toDigits_le {n : ℕ} (h : 0 < n) : 10 ^ ((Nat.toDigits 10 n).length - 1) ≤ n := by
  rcases Nat.eq_zero_or_pos ((Nat.toDigits 10 n).length - 1) with he | hpos
  · rw [he]
    exact h
  · by_contra hlt
    have hle := Nat.toDigits_length 10 n _ hpos (Nat.lt_of_not_le hlt)
    omega

/-- Leaving out some but not all of the digits of a number does not bring it below a power of ten. -/
theorem pow_le_of_leading {whole exponent count power m : ℕ} (hpower : 10 ^ power ≤ whole) (hcount : 1 ≤ count)
    (hexponent : exponent = (Nat.toDigits 10 whole).length - count) (hm : whole / Nat.pow 10 exponent ≤ m) :
    10 ^ power ≤ m * 10 ^ exponent := by
  have hten : ∀ places : ℕ, 0 < 10 ^ places := fun places => Nat.pow_pos (by decide)
  have hlow := pow_length_toDigits_le (Nat.lt_of_lt_of_le (hten power) hpower)
  have hhigh := numberOf_lt (digits_toDigits whole).2
  rw [numberOf_toDigits] at hhigh
  have hlength : power < (Nat.toDigits 10 whole).length :=
    (Nat.pow_lt_pow_iff_right (by decide)).mp (Nat.lt_of_le_of_lt hpower hhigh)
  have hsplit : (Nat.toDigits 10 whole).length - 1 = (Nat.toDigits 10 whole).length - 1 - exponent + exponent := by omega
  have hleading : 10 ^ ((Nat.toDigits 10 whole).length - 1 - exponent) ≤ whole / 10 ^ exponent := by
    rw [Nat.le_div_iff_mul_le (hten exponent), ← Nat.pow_add, ← hsplit]
    exact hlow
  calc 10 ^ power ≤ 10 ^ ((Nat.toDigits 10 whole).length - 1) := Nat.pow_le_pow_right (by decide) (by omega)
    _ = 10 ^ ((Nat.toDigits 10 whole).length - 1 - exponent) * 10 ^ exponent := by rw [← Nat.pow_add, ← hsplit]
    _ ≤ m * 10 ^ exponent := Nat.mul_le_mul_right _ (Nat.le_trans hleading hm)

/-- Nothing but zeros is missing at the end of the digits of a decimal. -/
theorem exists_zeros (m : ℕ) (exponent : ℤ) :
    ∃ count, (Decimal.ofScaled m exponent).digits ++ List.replicate count '0' = Nat.toDigits 10 m := by
  generalize hzeros : (Nat.toDigits 10 m).reverse.takeWhile (· == '0') = zeros
  have hall : zeros = List.replicate zeros.length '0' := by
    refine List.eq_replicate_of_mem ?_
    intro c hc
    rw [← hzeros] at hc
    exact beq_iff_eq.mp (of_mem_takeWhile c hc)
  have hsplit := List.takeWhile_append_dropWhile (p := (· == '0')) (l := (Nat.toDigits 10 m).reverse)
  rw [hzeros] at hsplit
  refine ⟨zeros.length, ?_⟩
  have hreverse := congrArg List.reverse hall
  rw [List.reverse_replicate] at hreverse
  rw [← List.reverse_reverse (Nat.toDigits 10 m), ← hsplit, List.reverse_append, hreverse]
  rfl

namespace Decimal

/-- The rational number that a decimal is. -/
def value (d : Decimal) : ℚ := numberOf d.digits * 10 ^ (d.point - d.digits.length)

/-- A decimal begins with a digit other than zero: its place says between which powers of ten the decimal lies. -/
structure Normal (d : Decimal) : Prop where
  digits : Digits d.digits
  le_value : 10 ^ (d.point - 1) ≤ d.value
  value_lt : d.value < 10 ^ d.point

theorem value_ofScaled (m : ℕ) (exponent : ℤ) : (ofScaled m exponent).value = m * 10 ^ exponent := by
  obtain ⟨count, hzeros⟩ := exists_zeros m exponent
  have hnumber := numberOf_toDigits m
  have hlength := congrArg List.length hzeros
  rw [List.length_append, List.length_replicate] at hlength
  rw [← hzeros, numberOf_append, numberOf_replicate_zero, List.length_replicate, Nat.add_zero] at hnumber
  have hpoint : (ofScaled m exponent).point = (Nat.toDigits 10 m).length + exponent := rfl
  have hshift : (ofScaled m exponent).point - (ofScaled m exponent).digits.length = count + exponent := by omega
  have hten : (10 : ℚ) ≠ 0 := by decide
  rw [value, hshift, zpow_add₀ hten, zpow_natCast, ← mul_assoc]
  congr 1
  exact_mod_cast hnumber

/-- A decimal made of a positive number begins with a digit other than zero. -/
theorem normal_ofScaled {m : ℕ} (h : 0 < m) (exponent : ℤ) : (ofScaled m exponent).Normal := by
  have hten : (10 : ℚ) ≠ 0 := by decide
  have hpoint : (ofScaled m exponent).point = (Nat.toDigits 10 m).length + exponent := rfl
  have hscale : (0 : ℚ) < 10 ^ exponent := by positivity
  obtain ⟨count, hzeros⟩ := exists_zeros m exponent
  refine ⟨⟨?_, ?_⟩, ?_, ?_⟩
  · intro hnil
    have hnumber := numberOf_toDigits m
    rw [← hzeros, hnil, List.nil_append, numberOf_replicate_zero] at hnumber
    omega
  · intro c hc
    refine (digits_toDigits m).2 c ?_
    rw [← hzeros]
    exact List.mem_append_left _ hc
  · have hlow := pow_length_toDigits_le h
    have hshift : (ofScaled m exponent).point - 1 = ((Nat.toDigits 10 m).length - 1 : ℕ) + exponent := by
      have := @Nat.length_toDigits_pos 10 m
      omega
    rw [value_ofScaled, hshift, zpow_add₀ hten, zpow_natCast, mul_le_mul_iff_of_pos_right hscale]
    exact_mod_cast hlow
  · have hhigh := numberOf_lt (digits_toDigits m).2
    rw [numberOf_toDigits] at hhigh
    rw [value_ofScaled, hpoint, zpow_add₀ hten, zpow_natCast, mul_lt_mul_iff_of_pos_right hscale]
    exact_mod_cast hhigh

/-- A run of digits with zeros around it is a run of digits. -/
theorem digits_zeros {digits : List Char} (h : Digits digits) (front behind : ℕ) :
    Digits (List.replicate front '0' ++ digits ++ List.replicate behind '0') := by
  refine ⟨?_, ?_⟩
  · simp [h.1]
  · intro c hc
    simp only [List.mem_append, List.mem_replicate] at hc
    rcases hc with (⟨-, rfl⟩ | hc) | ⟨-, rfl⟩
    · rfl
    · exact h.2 c hc
    · rfl

theorem digits_zero : Digits ['0'] := digits_toDigits 0

/-- Written out in full, a decimal is digits on both sides of a point, and they write the decimal. -/
theorem plain_eq {d : Decimal} (h : Digits d.digits) :
    ∃ whole fraction, Digits whole ∧ Digits fraction ∧ d.plain.toList = whole ++ '.' :: fraction ∧
      decimalOf whole fraction = d.value := by
  have hnothing : numberOf ['0'] = 0 := rfl
  unfold plain
  simp only
  split
  · next hpoint =>
    -- the number is below one
    refine ⟨['0'], List.replicate (-d.point).toNat '0' ++ d.digits, digits_zero, ?_, by simp, ?_⟩
    · have hdigits := digits_zeros h (-d.point).toNat 0
      rwa [List.replicate_zero, List.append_nil] at hdigits
    · have hplaces : d.point - d.digits.length = -((-d.point).toNat + d.digits.length : ℕ) := by omega
      rw [decimalOf, hnothing, Nat.cast_zero, zero_add, numberOf_zeros, List.length_append, List.length_replicate, value, hplaces,
        zpow_neg, zpow_natCast, div_eq_mul_inv]
  · next hpoint =>
    split
    · next hinside =>
      -- the point stands between two digits
      refine ⟨d.digits.take d.point.toNat, d.digits.drop d.point.toNat, ⟨?_, ?_⟩, ⟨?_, ?_⟩, by simp, ?_⟩
      · rw [Ne, List.take_eq_nil_iff, not_or]
        exact ⟨by omega, h.1⟩
      · exact fun c hc => h.2 c (List.mem_of_mem_take hc)
      · rw [Ne, List.drop_eq_nil_iff]
        omega
      · exact fun c hc => h.2 c (List.mem_of_mem_drop hc)
      · have hplaces : d.point - d.digits.length = -(d.digits.length - d.point.toNat : ℕ) := by omega
        rw [decimalOf_eq, List.take_append_drop, List.length_drop, value, hplaces, zpow_neg, zpow_natCast, div_eq_mul_inv,
          Nat.cast_pow, Nat.cast_ofNat]
    · next hbehind =>
      -- the number is whole
      refine ⟨d.digits ++ List.replicate (d.point.toNat - d.digits.length) '0', ['0'], ?_, digits_zero, by simp, ?_⟩
      · have hdigits := digits_zeros h 0 (d.point.toNat - d.digits.length)
        rwa [List.replicate_zero, List.nil_append] at hdigits
      · have hplaces : d.point - d.digits.length = (d.point.toNat - d.digits.length : ℕ) := by omega
        rw [decimalOf, hnothing, Nat.cast_zero, zero_div, add_zero, numberOf_append, numberOf_replicate_zero, Nat.add_zero,
          List.length_replicate, value, hplaces, zpow_natCast, Nat.cast_mul, Nat.cast_pow, Nat.cast_ofNat]

end Decimal

/-! ## The decimal of a number -/

namespace Binary64

/-- A decimal of a number was found on the grid of so many digits, not below the number there, and reads back, or it is exact. -/
inductive WrittenAs (x : Binary64) : Decimal → Prop where
  | grid {whole exponent count m : ℕ} : whole = x.gridUnits / Nat.pow 2 1074 →
      exponent = (Nat.toDigits 10 whole).length - count → 1 ≤ count → whole / Nat.pow 10 exponent ≤ m →
      x.readsBack m exponent = true → WrittenAs x (.ofScaled m (exponent - gridDigits : ℤ))
  | exact : WrittenAs x x.exactDecimal

/-- The nearest decimal with so many digits, where there is one, is a way to write the number. -/
theorem writtenAs_nearest {x : Binary64} {count : ℕ} {d : Decimal} (hcount : 1 ≤ count) (h : x.nearestDecimal? count = some d) :
    x.WrittenAs d := by
  unfold nearestDecimal? at h
  simp only at h
  split at h
  · next hlow =>
    obtain rfl := Option.some.inj h
    exact WrittenAs.grid rfl rfl hcount (Nat.le_refl _) (Bool.and_eq_true_iff.mp hlow).1
  · split at h
    · next hhigh =>
      obtain rfl := Option.some.inj h
      exact WrittenAs.grid rfl rfl hcount (Nat.le_add_right _ 1) hhigh
    · cases h

/-- The shortest decimal of a number is found in one of these ways. -/
theorem writtenAs_shortest (x : Binary64) : x.WrittenAs x.shortestDecimal := by
  unfold shortestDecimal
  cases hfound : (List.range' 1 17).findSome? x.nearestDecimal? with
  | none => exact WrittenAs.exact
  | some d =>
    obtain ⟨count, hcount, hd⟩ := List.exists_of_findSome?_eq_some hfound
    exact writtenAs_nearest (List.mem_range'_1.mp hcount).1 hd

variable {x : Binary64} {d : Decimal}

/-- A number without a sign is its count of units. -/
theorem value_eq_units (hs : x.isNegative = false) : x.value = x.units / 2 ^ 1074 := by
  rw [value_of_not_negative hs, units_eq, magnitude_of_not_negative hs]

/-- The exact decimal of a number is the number. -/
theorem value_exactDecimal (hs : x.isNegative = false) : x.exactDecimal.value = x.value := by
  -- the powers are never computed
  obtain ⟨unit, hunit⟩ : ∃ unit : ℕ, unit = 1074 := ⟨_, rfl⟩
  have hplaces : (-1074 : ℤ) = -((1074 : ℕ) : ℤ) := rfl
  have hten : (10 : ℚ) ^ unit = 2 ^ unit * 5 ^ unit := by
    rw [← mul_pow]
    norm_num
  have hfive : (5 : ℚ) ^ unit ≠ 0 := by positivity
  rw [exactDecimal, Decimal.value_ofScaled, value_eq_units hs, hplaces, ← hunit, zpow_neg, zpow_natCast, hten, Nat.pow_eq,
    Nat.cast_mul, Nat.cast_pow, Nat.cast_ofNat, ← div_eq_mul_inv, mul_div_mul_right _ _ hfive]

/-- Steps of the finest grid, as a decimal and as a quotient. -/
theorem value_ofGrid (m exponent : ℕ) :
    (Decimal.ofScaled m (exponent - gridDigits : ℤ)).value =
      (m * Nat.pow 10 exponent : ℕ) / (Nat.pow 10 gridDigits : ℕ) := by
  have hten : (10 : ℚ) ≠ 0 := by decide
  rw [Decimal.value_ofScaled, zpow_sub₀ hten, zpow_natCast, zpow_natCast, Nat.pow_eq, Nat.pow_eq, Nat.cast_mul, Nat.cast_pow,
    Nat.cast_pow, Nat.cast_ofNat, mul_div_assoc]

namespace WrittenAs

/-- A number is what its decimal is rounded to. -/
theorem roundedFrom (h : x.WrittenAs d) (hs : x.isNegative = false) (hf : x.IsFinite) : x.RoundedFrom d.value := by
  cases h with
  | @grid whole exponent count m _ _ _ _ hreads =>
    have hten : ∀ places, 0 < Nat.pow 10 places := fun places => Nat.pow_pos (by decide)
    have hround := roundedFrom_ofRatio (m * Nat.pow 10 exponent) (hten gridDigits)
    have hsign := (not_negative_of_le hround.1).1
    have hbits : (ofRatio (m * Nat.pow 10 exponent) (Nat.pow 10 gridDigits)).bits.toNat = x.bits.toNat := by
      rw [← magnitude_of_not_negative hsign, ← magnitude_of_not_negative hs]
      exact beq_iff_eq.mp hreads
    rw [value_ofGrid]
    rwa [eq_of_bits hbits] at hround
  | exact =>
    rw [value_exactDecimal hs]
    exact roundedFrom_value hs hf

/-- The decimal of a number other than zero begins with a digit other than zero. -/
theorem normal (h : x.WrittenAs d) (hs : x.isNegative = false) (hf : x.IsFinite) (hpos : 0 < x.value) : d.Normal := by
  have hround := h.roundedFrom hs hf
  have hne : d.value ≠ 0 := by
    intro hzero
    rw [hzero] at hround
    have hbits := (hround.nearestTo le_rfl).isZero_iff.mpr (by positivity)
    have hunits : unitsOf 0 = 0 := rfl
    rw [value_of_not_negative hs, hbits, UInt64.toNat_zero, hunits, Nat.cast_zero, zero_div] at hpos
    exact lt_irrefl _ hpos
  have hscaled : ∀ m exponent, d = .ofScaled m exponent → d.Normal := by
    rintro m exponent rfl
    refine Decimal.normal_ofScaled (Nat.pos_of_ne_zero ?_) exponent
    rintro rfl
    rw [Decimal.value_ofScaled, Nat.cast_zero, zero_mul] at hne
    exact hne rfl
  cases h with
  | grid _ _ _ _ _ => exact hscaled _ _ rfl
  | exact => exact hscaled _ _ rfl

/-- A power of ten that is not above a number is not above its decimal, down to a step of the finest grid. -/
theorem pow_le (h : x.WrittenAs d) (hs : x.isNegative = false) {power : ℕ}
    (hle : 10 ^ power ≤ x.value * 10 ^ gridDigits) : 10 ^ power ≤ d.value * 10 ^ gridDigits := by
  cases h with
  | @grid whole exponent count m hwhole hexponent hcount hm _ =>
    -- the powers are never computed
    obtain ⟨unit, hunit⟩ : ∃ unit : ℕ, unit = 1074 := ⟨_, rfl⟩
    have htwo : 0 < Nat.pow 2 unit := Nat.two_pow_pos unit
    have hpos : (0 : ℚ) < 2 ^ unit := by positivity
    have hgrid : (10 : ℚ) ^ gridDigits ≠ 0 := by positivity
    have hpower : 10 ^ power ≤ whole := by
      rw [value_eq_units hs, ← hunit, div_mul_eq_mul_div, le_div_iff₀ hpos] at hle
      rw [hwhole, ← hunit, Nat.le_div_iff_mul_le htwo, gridUnits, Nat.pow_eq, Nat.pow_eq]
      generalize gridDigits = grid at hle ⊢
      exact_mod_cast hle
    have hlow := pow_le_of_leading hpower hcount hexponent hm
    rw [value_ofGrid, Nat.pow_eq, Nat.pow_eq, Nat.cast_pow 10 gridDigits, Nat.cast_ofNat, div_mul_cancel₀ _ hgrid]
    exact_mod_cast hlow
  | exact => rwa [value_exactDecimal hs]

/-- The decimal of a number from 0.0001 on is not below 0.0001. -/
theorem le_value (h : x.WrittenAs d) (hs : x.isNegative = false) (hle : 1 / 10 ^ 4 ≤ x.value) : 1 / 10 ^ 4 ≤ d.value := by
  obtain ⟨power, hpower⟩ : ∃ power : ℕ, gridDigits = 4 + power := ⟨337, rfl⟩
  have hstep : (0 : ℚ) < 10 ^ gridDigits := by positivity
  have hscale : (1 / 10 ^ 4 : ℚ) * 10 ^ gridDigits = 10 ^ power := by
    rw [hpower, pow_add, ← mul_assoc, one_div_mul_cancel (by positivity), one_mul]
  have hgrid := h.pow_le hs (hscale ▸ mul_le_mul_of_nonneg_right hle hstep.le)
  rw [← hscale] at hgrid
  exact le_of_mul_le_mul_right hgrid hstep

end WrittenAs

theorem exists_ten_quadrillion : ∃ y : Binary64, y.isNegative = false ∧ y.IsFinite ∧ y.value = 10 ^ 16 := by
  refine ⟨⟨0x4341C37937E08000⟩, by decide, by decide, ?_⟩
  have hexponent : exponent ⟨0x4341C37937E08000⟩ = 1076 := by decide
  have hsignificand : significand ⟨0x4341C37937E08000⟩ = 5 * 10 ^ 15 := by decide
  have hsign : isNegative ⟨0x4341C37937E08000⟩ = false := by decide
  rw [value, hexponent, hsignificand, hsign]
  norm_num

/-- A number below ten quadrillion is finite. -/
theorem isFinite_of_value_lt (hs : x.isNegative = false) (h : x.value < 10 ^ 16) : x.IsFinite := by
  obtain ⟨y, hsy, hfy, hy⟩ := exists_ten_quadrillion
  rw [← hy, value_lt_value_iff hs hsy] at h
  rw [IsFinite, magnitude_of_not_negative hsy] at hfy
  rw [IsFinite, magnitude_of_not_negative hs]
  exact Nat.lt_trans h hfy

/-- The decimal of a number is written out in full from 0.0001 up to ten quadrillion. -/
theorem layout_shortest (hs : x.isNegative = false) (hf : x.IsFinite) (hlow : 1 / 10 ^ 4 ≤ x.value)
    (hhigh : x.value < 10 ^ 16) (hnormal : x.shortestDecimal.Normal) :
    layout.lowest ≤ x.shortestDecimal.point - 1 ∧ x.shortestDecimal.point - 1 < layout.limit := by
  have hwritten := x.writtenAs_shortest
  have hten : (1 : ℚ) < 10 := by norm_num
  constructor
  · have hbelow : (10 : ℚ) ^ (-4 : ℤ) < 10 ^ x.shortestDecimal.point := by
      rw [zpow_neg, ← one_div]
      exact lt_of_le_of_lt (hwritten.le_value hs hlow) hnormal.value_lt
    have hpoint := (zpow_lt_zpow_iff_right₀ hten).mp hbelow
    have hlowest : layout.lowest = -4 := rfl
    omega
  · by_contra hlimit
    have hpoint : ((16 : ℕ) : ℤ) ≤ x.shortestDecimal.point - 1 := not_lt.mp hlimit
    have habove : (10 : ℚ) ^ 16 ≤ x.shortestDecimal.value := by
      rw [← zpow_natCast]
      exact (zpow_le_zpow_right₀ hten.le hpoint).trans hnormal.le_value
    -- a decimal from ten quadrillion on is not rounded to a smaller number
    obtain ⟨y, hsy, hfy, hy⟩ := exists_ten_quadrillion
    have hround := roundedFrom_value hsy hfy
    rw [hy] at hround
    have hbits := hround.mono (hwritten.roundedFrom hs hf) habove
    rw [← hy, value_lt_value_iff hs hsy] at hhigh
    omega

/-- Zero and the numbers from 0.0001 up to ten quadrillion are written as digits on both sides of a point, and are what these
are rounded to. -/
theorem render_plain (hs : x.isNegative = false) (h : x.value = 0 ∨ 1 / 10 ^ 4 ≤ x.value ∧ x.value < 10 ^ 16) :
    ∃ whole fraction, Digits whole ∧ Digits fraction ∧ x.render.toList = whole ++ '.' :: fraction ∧
      x.RoundedFrom (decimalOf whole fraction) := by
  have hf : x.IsFinite := by
    refine isFinite_of_value_lt hs ?_
    rcases h with h | ⟨-, h⟩
    · rw [h]
      positivity
    · exact h
  have hround := roundedFrom_value hs hf
  have hrender : x.render = if x.units = 0 then "0.0" else x.shortestDecimal.render layout := by
    obtain ⟨hn, hi⟩ := isFinite_iff.mp hf
    simp only [render, renderMagnitude, hn, hi, hs, Bool.false_eq_true, if_false]
  have hunit : (0 : ℚ) < 2 ^ 1074 := by positivity
  have hzero : x.value = 0 ↔ x.units = 0 := by
    rw [value_eq_units hs, div_eq_zero_iff, or_iff_left hunit.ne', Nat.cast_eq_zero]
  by_cases hz : x.units = 0
  · have hnothing : decimalOf ['0'] ['0'] = 0 := by
      have hdigit : numberOf ['0'] = 0 := rfl
      rw [decimalOf, hdigit, Nat.cast_zero, zero_div, add_zero]
    rw [hzero.mpr hz, ← hnothing] at hround
    refine ⟨['0'], ['0'], Decimal.digits_zero, Decimal.digits_zero, ?_, hround⟩
    rw [hrender, if_pos hz]
    rfl
  · obtain ⟨hlow, hhigh⟩ := h.resolve_left (fun he => hz (hzero.mp he))
    have hpos : 0 < x.value := lt_of_lt_of_le (by positivity) hlow
    have hwritten := x.writtenAs_shortest
    have hnormal := hwritten.normal hs hf hpos
    obtain ⟨whole, fraction, hw, hfr, htext, hvalue⟩ := Decimal.plain_eq hnormal.digits
    refine ⟨whole, fraction, hw, hfr, ?_, ?_⟩
    · rw [hrender, if_neg hz, Decimal.render, if_pos (layout_shortest hs hf hlow hhigh hnormal), htext]
    · rw [hvalue]
      exact hwritten.roundedFrom hs hf

end Binary64

end MiniLex
