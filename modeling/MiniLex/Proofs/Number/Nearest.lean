import Mathlib.Tactic.NormNum.Pow
import MiniLex.Proofs.Number.Rounding

/-!
# The nearest number

Bits are decoded to the rational number that they stand for (`Binary64.value`), and a number is nearest to a rational magnitude
as the rounding to nearest with ties to even has it, the infinity and zero included (`NearestTo`). There is one such number for
every magnitude: the one made of it as a quotient (`roundedFrom_ofRatio`, `NearestTo.unique`). A larger magnitude never gives a
smaller number (`RoundedFrom.mono`), and every finite number is the one nearest to itself (`roundedFrom_value`).
-/

namespace MiniLex

namespace Binary64

/-! ## Numbers -/

/-- The exponent, as its eleven bits have it. -/
def exponent (x : Binary64) : ℕ := x.magnitude / 2 ^ 52

/-- The 52 bits of the fraction. -/
def fraction (x : Binary64) : ℕ := x.magnitude % 2 ^ 52

/-- The digits of a number: the fraction, behind a hidden bit unless the exponent is zero. -/
def significand (x : Binary64) : ℕ := if x.exponent = 0 then x.fraction else 2 ^ 52 + x.fraction

/-- The number that finite bits stand for: the significand times a power of two, with its sign. The lowest exponent is that of
the numbers without a hidden bit as well. -/
def value (x : Binary64) : ℚ :=
  (if x.isNegative then -1 else 1) * (x.significand * 2 ^ ((max x.exponent 1 : ℕ) - 1075 : ℤ))

/-- Bits stand for a number that is neither infinite nor none at all. -/
def IsFinite (x : Binary64) : Prop := x.magnitude < infinityBits

instance (x : Binary64) : Decidable x.IsFinite := inferInstanceAs (Decidable (x.magnitude < infinityBits))

/-- A floating-point number is nearest to a rational number that is not negative. It is infinite from half way above the
largest number on and zero up to half of the smallest; otherwise no finite number is nearer, and if another one is as near, the
last bit of the significand is zero. -/
structure NearestTo (x : Binary64) (q : ℚ) : Prop where
  isNegative_eq : x.isNegative = false
  isNaN_eq : x.isNaN = false
  isInfinite_iff : x.isInfinite = true ↔ 2 ^ 1024 - 2 ^ 970 ≤ q
  isZero_iff : x.bits = 0 ↔ q ≤ 1 / 2 ^ 1075
  nearest : x.isInfinite = false → ∀ y : Binary64, y.IsFinite → |q - x.value| ≤ |q - y.value|
  even : x.isInfinite = false → ∀ y : Binary64, y.IsFinite → y.value ≠ x.value → |q - x.value| = |q - y.value| →
    Even x.significand

/-- A number counts units of 2 ^ -1074. -/
theorem value_eq (x : Binary64) : x.value = (if x.isNegative then -1 else 1) * (unitsOf x.magnitude / 2 ^ 1074) := by
  unfold value significand unitsOf
  congr 1
  have hexponent : x.exponent = x.magnitude / 2 ^ 52 := rfl
  have hfraction : x.fraction = x.magnitude % 2 ^ 52 := rfl
  rw [← hexponent, ← hfraction]
  by_cases he : x.exponent = 0
  · rw [if_pos he, if_pos he, he]
    have hunit : ((max 0 1 : ℕ) - 1075 : ℤ) = -(1074 : ℕ) := by decide
    rw [hunit, zpow_neg, zpow_natCast, div_eq_mul_inv]
  · rw [if_neg he, if_neg he]
    have hmax : max x.exponent 1 = (x.exponent - 1) + 1 := by omega
    have hshift : ((max x.exponent 1 : ℕ) - 1075 : ℤ) = (x.exponent - 1 : ℕ) - (1074 : ℕ) := by omega
    rw [hshift, zpow_sub₀ two_ne_zero, zpow_natCast, zpow_natCast, Nat.cast_mul, Nat.cast_pow, Nat.cast_ofNat, mul_div_assoc]

theorem even_significand_iff (x : Binary64) : Even x.significand ↔ Even x.magnitude := by
  unfold significand exponent fraction
  simp only [Nat.even_iff]
  split <;> omega

theorem eq_of_bits {x y : Binary64} (h : x.bits.toNat = y.bits.toNat) : x = y := by
  cases x
  cases y
  exact congrArg Binary64.mk (UInt64.toNat_inj.mp h)

/-- Without a sign, the magnitude is all of the bits. -/
theorem magnitude_of_not_negative {x : Binary64} (h : x.isNegative = false) : x.magnitude = x.bits.toNat := by
  have hlt : x.bits.toNat < Nat.pow 2 63 := by simpa [isNegative] using h
  exact Nat.mod_eq_of_lt hlt

/-- A number that is not negative is a multiple of the unit. -/
theorem value_of_not_negative {x : Binary64} (h : x.isNegative = false) : x.value = unitsOf x.bits.toNat / 2 ^ 1074 := by
  rw [value_eq, magnitude_of_not_negative h, h, if_neg Bool.false_ne_true, one_mul]

/-- Below the infinite bits there is neither a sign nor anything that is no number. -/
theorem not_negative_of_le {x : Binary64} (h : x.bits.toNat ≤ infinityBits) : x.isNegative = false ∧ x.isNaN = false := by
  have hlt : x.bits.toNat < Nat.pow 2 63 := Nat.lt_of_le_of_lt h (by decide)
  have hsign : x.isNegative = false := by simpa [isNegative] using hlt
  refine ⟨hsign, ?_⟩
  rw [isNaN, magnitude_of_not_negative hsign]
  simpa using h

/-! ## Rounding to a number -/

/-- The bits that a magnitude below the smallest number is rounded to. -/
theorem roundsWithin_zero_iff (q : ℚ) : RoundsWithin (q * 2 ^ 1074) 0 ↔ q ≤ 1 / 2 ^ 1075 := by
  have hmiddle : ((unitsOf 0 : ℕ) : ℚ) + (unitsOf (0 + 1) : ℕ) = 1 := by norm_num [unitsOf]
  have hpow : (0 : ℚ) < 2 ^ 1075 := by positivity
  have hdouble : 2 * (q * 2 ^ 1074) = q * 2 ^ 1075 := by rw [mul_left_comm, ← pow_succ']
  rw [RoundsWithin, hmiddle, hdouble, le_div_iff₀ hpow, le_iff_lt_or_eq]
  exact or_congr_right (and_iff_left Even.zero)

/-- The largest number and the bits behind it. -/
theorem unitsOf_largest : unitsOf (infinityBits - 1) = (2 ^ 53 - 1) * 2 ^ 2045 ∧ unitsOf infinityBits = 2 ^ 53 * 2 ^ 2045 := by
  have hlast : infinityBits - 1 = 2045 * 2 ^ 52 + (2 ^ 53 - 1) := by decide
  have hinfinity : infinityBits = 2045 * 2 ^ 52 + 2 ^ 53 := by decide
  rw [hlast, hinfinity]
  exact ⟨unitsOf_cut (by decide) (Or.inr (by decide)), unitsOf_cut (by decide) (Or.inr (by decide))⟩

/-- The magnitudes that are rounded to a finite number. -/
theorem roundsWithin_largest_iff (q : ℚ) : RoundsWithin (q * 2 ^ 1074) (infinityBits - 1) ↔ q < 2 ^ 1024 - 2 ^ 970 := by
  have hnext : infinityBits - 1 + 1 = infinityBits := by decide
  have hodd : ¬Even (infinityBits - 1) := by decide
  rw [RoundsWithin, hnext, unitsOf_largest.1, unitsOf_largest.2, or_iff_left (fun h => hodd h.2)]
  have hunit : (0 : ℚ) < 2 * 2 ^ 1074 := by positivity
  have hmiddle : (((2 ^ 53 - 1) * 2 ^ 2045 : ℕ) : ℚ) + ((2 ^ 53 * 2 ^ 2045 : ℕ) : ℚ) =
      2 * 2 ^ 1074 * (2 ^ 1024 - 2 ^ 970) := by
    have hlow : (2 : ℚ) ^ 2045 = 2 * 2 ^ 1074 * 2 ^ 970 := by rw [← pow_succ', ← pow_add]
    have hhigh : (2 : ℚ) ^ 1024 = 2 ^ 54 * 2 ^ 970 := by rw [← pow_add]
    rw [Nat.cast_mul, Nat.cast_mul, Nat.cast_pow 2 2045, Nat.cast_ofNat, hlow, hhigh]
    generalize (2 : ℚ) ^ 1074 = unit
    generalize (2 : ℚ) ^ 970 = step
    push_cast
    ring
  have hdouble : 2 * (q * 2 ^ 1074) = 2 * 2 ^ 1074 * q := by rw [mul_comm q, mul_assoc]
  rw [hmiddle, hdouble, mul_lt_mul_iff_of_pos_left hunit]

/-- A number is what a magnitude is rounded to: of the bits up to the infinite ones, the lowest that it is rounded within. -/
def RoundedFrom (x : Binary64) (q : ℚ) : Prop :=
  x.bits.toNat ≤ infinityBits ∧
    ∀ bits < infinityBits, x.bits.toNat ≤ bits ↔ RoundsWithin (q * 2 ^ 1074) bits

/-- The bits of a number made of a quotient, which is counted in units of 2 ^ -1074 first. -/
theorem toNat_bits_ofRatio (num den : ℕ) {unit : ℕ} (h : unit = 1074) :
    (ofRatio num den).bits.toNat = min (roundedBits (num * 2 ^ unit) den) infinityBits := by
  unfold ofRatio
  rw [← h]
  exact UInt64.toNat_ofNat_of_lt' (Nat.lt_of_le_of_lt (Nat.min_le_right _ _) (by decide))

/-- A quotient is rounded to the number made of it. -/
theorem roundedFrom_ofRatio (num : ℕ) {den : ℕ} (hden : 0 < den) : (ofRatio num den).RoundedFrom (num / den) := by
  -- the power of two is never computed
  obtain ⟨unit, hunit⟩ : ∃ unit : ℕ, unit = 1074 := ⟨_, rfl⟩
  have hbits := toNat_bits_ofRatio num den hunit
  refine ⟨by rw [hbits]; exact Nat.min_le_right _ _, ?_⟩
  intro bits hlt
  have hratio : ((num * 2 ^ unit : ℕ) : ℚ) / den = num / den * 2 ^ unit := by
    rw [Nat.cast_mul, Nat.cast_pow, Nat.cast_ofNat, mul_div_right_comm]
  rw [hbits, ← hunit, ← hratio, ← roundedBits_le_iff _ hden]
  omega

namespace RoundedFrom

variable {x x' : Binary64} {q q' : ℚ}

/-- A smaller magnitude is not rounded to higher bits. -/
theorem mono (h : x.RoundedFrom q) (h' : x'.RoundedFrom q') (hq : q ≤ q') : x.bits.toNat ≤ x'.bits.toNat := by
  by_cases hlt : x'.bits.toNat < infinityBits
  · refine (h.2 _ hlt).mpr (((h'.2 _ hlt).mp (Nat.le_refl _)).of_le ?_)
    exact mul_le_mul_of_nonneg_right hq (by positivity)
  · exact Nat.le_trans h.1 (Nat.le_of_not_lt hlt)

theorem unique (h : x.RoundedFrom q) (h' : x'.RoundedFrom q) : x = x' := by
  exact eq_of_bits (Nat.le_antisymm (h.mono h' le_rfl) (h'.mono h le_rfl))

end RoundedFrom

/-- Of the magnitudes, that of the lowest bits that another one is rounded within is nearest to it, and where one is as near the
last bit is zero. -/
theorem nearest_of_roundsWithin {q : ℚ} {bits : ℕ} (h : RoundsWithin q bits)
    (hlowest : ∀ lower < bits, ¬RoundsWithin q lower) (other : ℕ) :
    |q - unitsOf bits| ≤ |q - unitsOf other| ∧
      (other ≠ bits → |q - unitsOf bits| = |q - unitsOf other| → Even bits) := by
  rcases lt_trichotomy other bits with hlt | rfl | hlt
  · obtain ⟨prev, rfl⟩ : ∃ prev, bits = prev + 1 := ⟨bits - 1, by omega⟩
    have hprev := hlowest prev (Nat.lt_succ_self prev)
    rw [RoundsWithin, not_or, not_lt] at hprev
    have hother : (unitsOf other : ℚ) ≤ unitsOf prev :=
      Nat.cast_le.mpr (strictMono_unitsOf.monotone (Nat.le_of_lt_succ hlt))
    have hnext : (unitsOf prev : ℚ) < unitsOf (prev + 1) := Nat.cast_lt.mpr (unitsOf_lt_succ prev)
    have hdistance : |q - unitsOf other| = q - unitsOf other := abs_of_pos (by linarith [hprev.1])
    rw [hdistance]
    refine ⟨abs_le.mpr ⟨by linarith [hprev.1], by linarith⟩, ?_⟩
    intro _ heq
    -- a tie is the middle between the bits and the ones before them
    rcases eq_or_eq_neg_of_abs_eq heq with he | he
    · linarith
    · have hmiddle : 2 * q = unitsOf prev + unitsOf (prev + 1) := by linarith [hprev.1]
      have hodd : ¬Even prev := fun heven => hprev.2 ⟨hmiddle, heven⟩
      exact Nat.even_add_one.mpr hodd
  · exact ⟨le_rfl, fun hne => absurd rfl hne⟩
  · have hother : (unitsOf (bits + 1) : ℚ) ≤ unitsOf other := Nat.cast_le.mpr (strictMono_unitsOf.monotone hlt)
    have hnext : (unitsOf bits : ℚ) < unitsOf (bits + 1) := Nat.cast_lt.mpr (unitsOf_lt_succ bits)
    have hle : 2 * q ≤ unitsOf bits + unitsOf (bits + 1) := by
      rcases h with h | ⟨h, -⟩
      · exact h.le
      · exact h.le
    have hdistance : |q - unitsOf other| = unitsOf other - q := by
      rw [abs_sub_comm]
      exact abs_of_pos (by linarith)
    rw [hdistance]
    refine ⟨abs_le.mpr ⟨by linarith, by linarith⟩, ?_⟩
    intro _ heq
    rcases eq_or_eq_neg_of_abs_eq heq with he | he
    · rcases h with h | ⟨-, heven⟩
      · linarith
      · exact heven
    · linarith

theorem abs_sub_value {x : Binary64} (h : x.isNegative = false) (q : ℚ) :
    |q - x.value| = |q * 2 ^ 1074 - unitsOf x.bits.toNat| / 2 ^ 1074 := by
  have hunit : (0 : ℚ) < 2 ^ 1074 := by positivity
  have hscale : q - unitsOf x.bits.toNat / 2 ^ 1074 = (q * 2 ^ 1074 - unitsOf x.bits.toNat) / 2 ^ 1074 := by
    rw [sub_div, mul_div_cancel_right₀ q hunit.ne']
  rw [value_of_not_negative h, hscale, abs_div, abs_of_pos hunit]

/-- Zero is nearer to a magnitude than any number with a sign. -/
theorem le_abs_sub_value {y : Binary64} (h : y.isNegative = true) {q : ℚ} (hq : 0 ≤ q) :
    q ≤ |q - y.value| ∧ (|q - y.value| = q → y.value = 0) := by
  have hunit : (0 : ℚ) < 2 ^ 1074 := by positivity
  have hvalue : y.value = -(unitsOf y.magnitude / 2 ^ 1074) := by
    rw [value_eq, h, if_pos rfl, neg_one_mul]
  have hpos : (0 : ℚ) ≤ unitsOf y.magnitude / 2 ^ 1074 := div_nonneg (Nat.cast_nonneg _) hunit.le
  rw [hvalue, sub_neg_eq_add]
  generalize (unitsOf y.magnitude / 2 ^ 1074 : ℚ) = distance at hpos
  rw [abs_of_nonneg (add_nonneg hq hpos)]
  refine ⟨by linarith, ?_⟩
  intro he
  linarith

/-- The number that a magnitude is rounded to is nearest to it. -/
theorem RoundedFrom.nearestTo {x : Binary64} {q : ℚ} (h : x.RoundedFrom q) (hq : 0 ≤ q) : x.NearestTo q := by
  obtain ⟨hle, hwithin⟩ := h
  obtain ⟨hsign, hnumber⟩ := not_negative_of_le hle
  have hmagnitude := magnitude_of_not_negative hsign
  have hinfinite : x.isInfinite = false → x.bits.toNat < infinityBits := by
    intro hx
    rw [isInfinite, hmagnitude, beq_eq_false_iff_ne] at hx
    exact Nat.lt_of_le_of_ne hle hx
  -- what is finite is the lowest of the bits that the magnitude is rounded within
  have hnearest : x.isInfinite = false → ∀ other, |q * 2 ^ 1074 - unitsOf x.bits.toNat| ≤ |q * 2 ^ 1074 - unitsOf other| ∧
      (other ≠ x.bits.toNat → |q * 2 ^ 1074 - unitsOf x.bits.toNat| = |q * 2 ^ 1074 - unitsOf other| →
        Even x.bits.toNat) := by
    intro hx
    have hlt := hinfinite hx
    refine nearest_of_roundsWithin ((hwithin _ hlt).mp (Nat.le_refl _)) ?_
    intro lower hlower hrounds
    exact absurd ((hwithin lower (Nat.lt_trans hlower hlt)).mpr hrounds) (Nat.not_le_of_lt hlower)
  have hunit : (0 : ℚ) < 2 ^ 1074 := by positivity
  have hzero : x.isInfinite = false → |q - x.value| ≤ q := by
    intro hx
    have h0 := (hnearest hx 0).1
    rw [abs_sub_value hsign, div_le_iff₀ hunit]
    have hunits : unitsOf 0 = 0 := rfl
    rwa [hunits, Nat.cast_zero, sub_zero, abs_of_nonneg (mul_nonneg hq hunit.le)] at h0
  refine ⟨hsign, hnumber, ?_, ?_, ?_, ?_⟩
  · rw [isInfinite, hmagnitude, beq_iff_eq, ← not_lt, ← roundsWithin_largest_iff, ← hwithin _ (by decide)]
    have hpos : 0 < infinityBits := by decide
    omega
  · rw [← roundsWithin_zero_iff, ← hwithin _ (by decide), ← UInt64.toNat_inj]
    exact Nat.le_zero.symm
  · intro hx y _
    cases hy : y.isNegative with
    | false =>
      rw [abs_sub_value hsign, abs_sub_value hy]
      exact div_le_div_of_nonneg_right ((hnearest hx _).1) hunit.le
    | true => exact (hzero hx).trans (le_abs_sub_value hy hq).1
  · intro hx y _ hne htie
    rw [even_significand_iff, hmagnitude]
    cases hy : y.isNegative with
    | false =>
      rw [abs_sub_value hsign, abs_sub_value hy, div_left_inj' hunit.ne'] at htie
      refine (hnearest hx _).2 ?_ htie
      intro he
      exact hne (by rw [value_of_not_negative hsign, value_of_not_negative hy, he])
    | true =>
      -- only zero can be as near with a sign, and without one it is as near too
      have hy0 := le_abs_sub_value hy hq
      have hequal : |q - x.value| = q := le_antisymm (hzero hx) (htie ▸ hy0.1)
      have hvalue := hy0.2 (htie ▸ hequal)
      rw [abs_sub_value hsign, div_eq_iff hunit.ne'] at hequal
      refine (hnearest hx 0).2 ?_ ?_
      · intro he
        refine hne ?_
        rw [hvalue, value_of_not_negative hsign, ← he]
        exact (zero_div _).symm
      · have hunits : unitsOf 0 = 0 := rfl
        rw [hequal, hunits, Nat.cast_zero, sub_zero, abs_of_nonneg (mul_nonneg hq hunit.le)]

/-! ## One nearest number -/

/-- Finite numbers are the ones that are neither infinite nor none. -/
theorem isFinite_iff {x : Binary64} : x.IsFinite ↔ x.isNaN = false ∧ x.isInfinite = false := by
  simp only [IsFinite, isNaN, isInfinite, decide_eq_false_iff_not, beq_eq_false_iff_ne]
  omega

/-- Numbers without a sign are ordered as their bits are. -/
theorem value_lt_value_iff {x y : Binary64} (hx : x.isNegative = false) (hy : y.isNegative = false) :
    x.value < y.value ↔ x.bits.toNat < y.bits.toNat := by
  rw [value_of_not_negative hx, value_of_not_negative hy, div_lt_div_iff_of_pos_right (by positivity), Nat.cast_lt]
  exact strictMono_unitsOf.lt_iff_lt

/-- Between numbers whose bits are not next to each other there is another one. -/
theorem exists_between {x y : Binary64} (hx : x.isNegative = false) (hy : y.isNegative = false) (hf : y.IsFinite)
    (h : x.bits.toNat + 1 < y.bits.toNat) : ∃ z : Binary64, z.IsFinite ∧ x.value < z.value ∧ z.value < y.value := by
  rw [IsFinite, magnitude_of_not_negative hy] at hf
  obtain ⟨z, hbits⟩ : ∃ z : Binary64, z.bits.toNat = x.bits.toNat + 1 :=
    ⟨⟨UInt64.ofNat (x.bits.toNat + 1)⟩, UInt64.toNat_ofNat_of_lt' (h.trans y.bits.toNat_lt)⟩
  have hz := (not_negative_of_le (show z.bits.toNat ≤ infinityBits by omega)).1
  refine ⟨z, ?_, (value_lt_value_iff hx hz).mpr (by omega), (value_lt_value_iff hz hy).mpr (by omega)⟩
  rw [IsFinite, magnitude_of_not_negative hz]
  omega

namespace NearestTo

variable {x y : Binary64} {q : ℚ}

/-- Of two numbers that are nearest neither is below the other. -/
theorem not_lt (hx : x.NearestTo q) (hy : y.NearestTo q) (hi : y.isInfinite = false) : ¬x.bits.toNat < y.bits.toNat := by
  intro hlt
  have hix : x.isInfinite = false := by
    rw [← Bool.not_eq_true, hx.isInfinite_iff, ← hy.isInfinite_iff, hi]
    exact Bool.false_ne_true
  have hfx := isFinite_iff.mpr ⟨hx.isNaN_eq, hix⟩
  have hfy := isFinite_iff.mpr ⟨hy.isNaN_eq, hi⟩
  have hvalue := (value_lt_value_iff hx.isNegative_eq hy.isNegative_eq).mpr hlt
  have htie := le_antisymm (hx.nearest hix y hfy) (hy.nearest hi x hfx)
  -- both last bits are zero, so there is a number between the two that is nearer
  have hevenx := hx.even hix y hfy hvalue.ne' htie
  have heveny := hy.even hi x hfx hvalue.ne htie.symm
  rw [even_significand_iff, magnitude_of_not_negative hx.isNegative_eq, Nat.even_iff] at hevenx
  rw [even_significand_iff, magnitude_of_not_negative hy.isNegative_eq, Nat.even_iff] at heveny
  obtain ⟨z, hfz, hxz, hzy⟩ := exists_between hx.isNegative_eq hy.isNegative_eq hfy (by omega)
  have hmiddle : q - x.value = y.value - q := by
    rcases abs_eq_abs.mp htie with h | h <;> linarith
  refine absurd (hx.nearest hix z hfz) (not_le_of_gt ?_)
  rw [abs_of_pos (show 0 < q - x.value by linarith)]
  exact abs_lt.mpr ⟨by linarith, by linarith⟩

theorem unique (hx : x.NearestTo q) (hy : y.NearestTo q) : x = y := by
  refine eq_of_bits ?_
  cases hi : y.isInfinite with
  | true =>
    have hix := hx.isInfinite_iff.mpr (hy.isInfinite_iff.mp hi)
    rw [isInfinite, magnitude_of_not_negative hx.isNegative_eq, beq_iff_eq] at hix
    rw [isInfinite, magnitude_of_not_negative hy.isNegative_eq, beq_iff_eq] at hi
    rw [hix, hi]
  | false =>
    have hix : x.isInfinite = false := by
      rw [← Bool.not_eq_true, hx.isInfinite_iff, ← hy.isInfinite_iff, hi]
      exact Bool.false_ne_true
    exact Nat.le_antisymm (Nat.le_of_not_lt (hy.not_lt hx hix)) (Nat.le_of_not_lt (hx.not_lt hy hi))

end NearestTo

/-- The numbers that a magnitude is rounded to are the nearest ones. -/
theorem roundedFrom_iff_nearestTo {x : Binary64} {q : ℚ} (hq : 0 ≤ q) : x.RoundedFrom q ↔ x.NearestTo q := by
  refine ⟨fun h => h.nearestTo hq, ?_⟩
  intro h
  have hratio := roundedFrom_ofRatio q.num.toNat q.den_pos
  have hnum : ((q.num.toNat : ℕ) : ℚ) / q.den = q := by
    have hcast : ((q.num.toNat : ℕ) : ℤ) = q.num := Int.toNat_of_nonneg (Rat.num_nonneg.mpr hq)
    rw [← Int.cast_natCast, hcast, Rat.num_div_den]
  rw [hnum] at hratio
  rwa [h.unique (hratio.nearestTo hq)]

/-! ## The order of the nearest numbers -/

/-- A number that is not negative is at most another one, where the infinity is above all of them. -/
def AtMost (x y : Binary64) : Prop := y.isInfinite = true ∨ x.isInfinite = false ∧ x.value ≤ y.value

/-- The number nearest to a larger magnitude is not smaller, and neither are its bits. -/
theorem NearestTo.mono {x y : Binary64} {q r : ℚ} (hx : x.NearestTo q) (hy : y.NearestTo r) (hq : 0 ≤ q) (h : q ≤ r) :
    x.AtMost y ∧ x.bits ≤ y.bits := by
  have hbits := ((roundedFrom_iff_nearestTo hq).mpr hx).mono ((roundedFrom_iff_nearestTo (hq.trans h)).mpr hy) h
  refine ⟨?_, hbits⟩
  cases hi : y.isInfinite with
  | true => exact Or.inl hi
  | false =>
    have hix : x.isInfinite = false := by
      rw [← Bool.not_eq_true, hx.isInfinite_iff, not_le]
      rw [← Bool.not_eq_true, hy.isInfinite_iff, not_le] at hi
      exact lt_of_le_of_lt h hi
    refine Or.inr ⟨hix, le_of_not_gt ?_⟩
    rw [value_lt_value_iff hy.isNegative_eq hx.isNegative_eq]
    exact Nat.not_lt_of_le hbits

/-! ## Exact numbers -/

/-- A magnitude that bits stand for is rounded within those and all above them. -/
theorem roundsWithin_unitsOf_iff (bits bits' : ℕ) : RoundsWithin (unitsOf bits) bits' ↔ bits ≤ bits' := by
  constructor
  · intro h
    exact Nat.le_of_lt_succ (strictMono_unitsOf.lt_iff_lt.mp (Nat.cast_lt.mp h.lt))
  · intro hle
    have hlow : (unitsOf bits : ℚ) ≤ unitsOf bits' := Nat.cast_le.mpr (strictMono_unitsOf.monotone hle)
    have hnext : (unitsOf bits' : ℚ) < unitsOf (bits' + 1) := Nat.cast_lt.mpr (unitsOf_lt_succ bits')
    exact Or.inl (by linarith)

/-- A finite number is what it is itself rounded to. -/
theorem roundedFrom_value {x : Binary64} (hs : x.isNegative = false) (hf : x.IsFinite) : x.RoundedFrom x.value := by
  rw [IsFinite, magnitude_of_not_negative hs] at hf
  refine ⟨hf.le, ?_⟩
  intro bits _
  have hunit : (2 : ℚ) ^ 1074 ≠ 0 := by positivity
  rw [value_of_not_negative hs, div_mul_cancel₀ _ hunit, roundsWithin_unitsOf_iff]

end Binary64

end MiniLex
