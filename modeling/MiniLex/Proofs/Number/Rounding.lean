import Mathlib.Algebra.Group.Nat.Even
import Mathlib.Algebra.Order.Field.Basic
import Mathlib.Algebra.Order.Field.Rat
import Mathlib.Algebra.Order.Group.Nat
import Mathlib.Order.Monotone.Basic
import Mathlib.Tactic.Linarith
import Mathlib.Tactic.Ring
import MiniLex.Number.Binary64

/-!
# Rounding to bits

The magnitudes that bits stand for grow with the bits, also where the exponent changes (`strictMono_unitsOf`). So a rational
magnitude is rounded by its place among the middles between neighbours: to the lowest bits whose middle with the next ones it
does not pass (`RoundsWithin`), where a middle itself goes to the even bits. Cutting a quotient to its leading binary digits and
rounding the rest gives those bits, in every binade and whether or not the digits carry (`roundedBits_le_iff`).
-/

namespace MiniLex

namespace Binary64

/-! ## Bits in order -/

/-- The multiple of 2 ^ -1074 that bits without a sign stand for. -/
def unitsOf (bits : ℕ) : ℕ :=
  if bits / 2 ^ 52 = 0 then bits % 2 ^ 52 else (2 ^ 52 + bits % 2 ^ 52) * 2 ^ (bits / 2 ^ 52 - 1)

theorem units_eq (x : Binary64) : x.units = unitsOf x.magnitude := rfl

/-- Digits above a cut, with the digits cut off counted in the exponent. -/
theorem unitsOf_cut {cut digits : ℕ} (hd : digits ≤ 2 ^ 53) (hc : cut = 0 ∨ 2 ^ 52 ≤ digits) :
    unitsOf (cut * 2 ^ 52 + digits) = digits * 2 ^ cut := by
  unfold unitsOf
  rcases Nat.lt_or_ge digits (2 ^ 52) with hlow | hlow
  · obtain rfl : cut = 0 := hc.resolve_right (by omega)
    rw [if_pos (by omega)]
    omega
  · rcases Nat.lt_or_ge digits (2 ^ 53) with hhigh | hhigh
    · have hquot : (cut * 2 ^ 52 + digits) / 2 ^ 52 = cut + 1 := by omega
      have hrest : 2 ^ 52 + (cut * 2 ^ 52 + digits) % 2 ^ 52 = digits := by omega
      rw [hquot, hrest, if_neg (Nat.succ_ne_zero cut), Nat.add_sub_cancel]
    · obtain rfl : digits = 2 ^ 53 := Nat.le_antisymm hd hhigh
      have hquot : (cut * 2 ^ 52 + 2 ^ 53) / 2 ^ 52 = cut + 2 := by omega
      have hrest : (cut * 2 ^ 52 + 2 ^ 53) % 2 ^ 52 = 0 := by omega
      rw [hquot, hrest, if_neg (Nat.succ_ne_zero _), Nat.add_zero]
      have hexp : cut + 2 - 1 = cut + 1 := rfl
      rw [hexp, Nat.pow_succ 2 cut, Nat.pow_succ 2 52]
      ring

/-- All bits are digits above a cut: 53 of them, or fewer where nothing is cut off. -/
theorem exists_cut (bits : ℕ) :
    ∃ cut digits, bits = cut * 2 ^ 52 + digits ∧ digits < 2 ^ 53 ∧ (cut = 0 ∨ 2 ^ 52 ≤ digits) := by
  refine ⟨bits / 2 ^ 52 - 1, bits - (bits / 2 ^ 52 - 1) * 2 ^ 52, ?_, ?_, ?_⟩ <;> omega

theorem unitsOf_lt_succ (bits : ℕ) : unitsOf bits < unitsOf (bits + 1) := by
  obtain ⟨cut, digits, rfl, hd, hc⟩ := exists_cut bits
  rw [unitsOf_cut (by omega) hc, Nat.add_assoc, unitsOf_cut (by omega) (hc.imp_right (by omega))]
  exact Nat.mul_lt_mul_of_pos_right (Nat.lt_succ_self digits) (Nat.two_pow_pos cut)

/-- Magnitudes are ordered as their bits are. -/
theorem strictMono_unitsOf : StrictMono unitsOf := strictMono_nat_of_lt_succ unitsOf_lt_succ

/-! ## Rounding -/

/-- A magnitude, in units of 2 ^ -1074, is rounded to some bits or to lower ones: it does not reach the middle between them and
the next ones, or it is the middle and the last bit is zero. -/
def RoundsWithin (q : ℚ) (bits : ℕ) : Prop :=
  2 * q < unitsOf bits + unitsOf (bits + 1) ∨ 2 * q = unitsOf bits + unitsOf (bits + 1) ∧ Even bits

/-- A smaller magnitude is not rounded to higher bits. -/
theorem RoundsWithin.of_le {q q' : ℚ} {bits : ℕ} (h : RoundsWithin q bits) (hq : q' ≤ q) : RoundsWithin q' bits := by
  rcases h with h | ⟨h, he⟩
  · exact Or.inl (by linarith)
  · rcases hq.lt_or_eq with hlt | rfl
    · exact Or.inl (by linarith)
    · exact Or.inr ⟨h, he⟩

/-- What is below some bits is rounded to them or to lower ones. -/
theorem roundsWithin_of_lt {q : ℚ} {bits : ℕ} (h : q < unitsOf bits) : RoundsWithin q bits := by
  have hnext : (unitsOf bits : ℚ) < unitsOf (bits + 1) := Nat.cast_lt.mpr (unitsOf_lt_succ bits)
  exact Or.inl (by linarith)

/-- What is rounded to bits or to lower ones is below the next ones. -/
theorem RoundsWithin.lt {q : ℚ} {bits : ℕ} (h : RoundsWithin q bits) : q < unitsOf (bits + 1) := by
  have hnext : (unitsOf bits : ℚ) < unitsOf (bits + 1) := Nat.cast_lt.mpr (unitsOf_lt_succ bits)
  rcases h with h | ⟨h, -⟩ <;> linarith

/-- What is not rounded to higher bits than some is not rounded to higher ones than others above them. -/
theorem RoundsWithin.mono {q : ℚ} {bits bits' : ℕ} (h : RoundsWithin q bits) (hle : bits ≤ bits') :
    RoundsWithin q bits' := by
  rcases hle.lt_or_eq with hlt | rfl
  · have hnext : (unitsOf (bits + 1) : ℚ) ≤ unitsOf bits' := Nat.cast_le.mpr (strictMono_unitsOf.monotone hlt)
    exact roundsWithin_of_lt (lt_of_lt_of_le h.lt hnext)
  · exact h

/-- A quotient is rounded to its floor where it does not reach the middle above it, or is the middle above an even floor. -/
theorem roundHalfEven_cases (num den : ℕ) :
    (roundHalfEven num den = num / den ∧ (2 * (num % den) < den ∨ 2 * (num % den) = den ∧ Even (num / den))) ∨
      (roundHalfEven num den = num / den + 1 ∧
        ¬(2 * (num % den) < den ∨ 2 * (num % den) = den ∧ Even (num / den))) := by
  simp only [roundHalfEven, Nat.even_iff]
  split
  · next h => exact Or.inl ⟨rfl, Or.inl h⟩
  · split
    · next h => exact Or.inr ⟨rfl, by omega⟩
    · split
      · next h => exact Or.inl ⟨rfl, Or.inr ⟨by omega, h⟩⟩
      · next h => exact Or.inr ⟨rfl, by omega⟩

/-- The bits of a quotient before the largest of them are capped. -/
def roundedBits (num den : ℕ) : ℕ :=
  let cut := Nat.log2 (num / den) - 52
  cut * 2 ^ 52 + roundHalfEven num (den * 2 ^ cut)

/-- The floor of a quotient, where digits are cut off, and the middle above it. -/
theorem roundsWithin_floor {num den cut : ℕ} (hden : 0 < den) (hf : num / (den * 2 ^ cut) < 2 ^ 53)
    (hc : cut = 0 ∨ 2 ^ 52 ≤ num / (den * 2 ^ cut)) :
    (unitsOf (cut * 2 ^ 52 + num / (den * 2 ^ cut)) : ℚ) ≤ num / den ∧
      (num / den : ℚ) < unitsOf (cut * 2 ^ 52 + (num / (den * 2 ^ cut) + 1)) ∧
      (RoundsWithin (num / den) (cut * 2 ^ 52 + num / (den * 2 ^ cut)) ↔
        2 * (num % (den * 2 ^ cut)) < den * 2 ^ cut ∨
          2 * (num % (den * 2 ^ cut)) = den * 2 ^ cut ∧ Even (num / (den * 2 ^ cut))) := by
  have hpow : 0 < 2 ^ cut := Nat.two_pow_pos cut
  have hsplit := Nat.div_add_mod num (den * 2 ^ cut)
  have hrest := Nat.mod_lt num (Nat.mul_pos hden hpow)
  generalize num / (den * 2 ^ cut) = floor at *
  generalize num % (den * 2 ^ cut) = rest at *
  have hparity : Even (cut * 2 ^ 52 + floor) ↔ Even floor := by
    rw [Nat.even_add]
    have hcut : Even (cut * 2 ^ 52) := (by decide : Even (2 ^ 52)).mul_left cut
    exact iff_true_left hcut
  unfold RoundsWithin
  rw [hparity, Nat.add_assoc, unitsOf_cut hf.le hc, unitsOf_cut hf (hc.imp_right (by omega))]
  have hd : (0 : ℚ) < den := Nat.cast_pos.mpr hden
  have hnum : (num : ℚ) = den * 2 ^ cut * floor + rest := by exact_mod_cast hsplit.symm
  have hr : (rest : ℚ) < den * 2 ^ cut := by exact_mod_cast hrest
  push_cast
  refine ⟨?_, ?_, ?_⟩
  · rw [le_div_iff₀ hd, hnum]
    have : (0 : ℚ) ≤ rest := Nat.cast_nonneg rest
    linarith
  · rw [div_lt_iff₀ hd, hnum]
    linarith
  · rw [← mul_div_assoc, div_lt_iff₀ hd, div_eq_iff hd.ne', hnum]
    refine or_congr ?_ (and_congr_left' ?_)
    · rw [← @Nat.cast_lt ℚ]
      push_cast
      constructor <;> intro h <;> linarith
    · rw [← @Nat.cast_inj ℚ]
      push_cast
      constructor <;> intro h <;> linarith

/-- The bits that a quotient is rounded to are the lowest that it is rounded within. -/
theorem roundedBits_le_iff (num : ℕ) {den : ℕ} (hden : 0 < den) (bits : ℕ) :
    roundedBits num den ≤ bits ↔ RoundsWithin (num / den) bits := by
  unfold roundedBits
  simp only
  generalize hcut : Nat.log2 (num / den) - 52 = cut
  -- the floor has 53 binary digits, or fewer where nothing is cut off
  have hpow : 0 < 2 ^ cut := Nat.two_pow_pos cut
  have hscale : 0 < den * 2 ^ cut := Nat.mul_pos hden hpow
  have hfloor : num / (den * 2 ^ cut) < 2 ^ 53 ∧ (cut = 0 ∨ 2 ^ 52 ≤ num / (den * 2 ^ cut)) := by
    rw [← Nat.div_div_eq_div_mul]
    constructor
    · rw [Nat.div_lt_iff_lt_mul hpow, ← Nat.pow_add]
      exact Nat.lt_of_lt_of_le Nat.lt_log2_self (Nat.pow_le_pow_right (by decide) (by omega))
    · by_cases hz : cut = 0
      · exact Or.inl hz
      · right
        rw [Nat.le_div_iff_mul_le hpow, ← Nat.pow_add]
        have hne : num / den ≠ 0 := by
          intro h
          rw [h] at hcut
          exact hz hcut.symm
        have hlog : 52 + cut = Nat.log2 (num / den) := by omega
        rw [hlog]
        exact Nat.log2_self_le hne
  obtain ⟨hle, hlt, hwithin⟩ := roundsWithin_floor hden hfloor.1 hfloor.2
  rcases roundHalfEven_cases num (den * 2 ^ cut) with ⟨he, hmiddle⟩ | ⟨he, hmiddle⟩
  · rw [he]
    refine ⟨(hwithin.mpr hmiddle).mono, ?_⟩
    intro h
    by_contra hn
    have hnext := Nat.cast_le (α := ℚ).mpr (strictMono_unitsOf.monotone (Nat.succ_le_of_lt (Nat.lt_of_not_le hn)))
    exact absurd (lt_of_lt_of_le h.lt (hnext.trans hle)) (lt_irrefl _)
  · rw [he]
    refine ⟨(roundsWithin_of_lt hlt).mono, ?_⟩
    intro h
    by_contra hn
    exact hmiddle (hwithin.mp (h.mono (Nat.le_of_lt_succ (Nat.lt_of_not_le hn))))

end Binary64

end MiniLex
