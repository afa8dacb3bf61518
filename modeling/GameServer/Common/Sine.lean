import GameServer.Common.Positive
import Mathlib.Analysis.Complex.Trigonometric
import Mathlib.NumberTheory.Zsqrtd.GaussianInt
/-!
# Sines of the first integers

The integer part of a multiple of `|sin n|`, for small `n`, read off
Gaussian integers: twenty terms of the series of `exp i` are a Gaussian
integer over `19!`, and its `n`-th power is close to `exp (n i)`.
-/

namespace GameServer.Sine

open Complex Finset

/-- The first `n` terms of the series of `exp i`, over `(n - 1)!`. -/
def partialSum : ℕ → GaussianInt
  | 0 => 0
  | n + 1 => n * partialSum n + ⟨0, 1⟩ ^ n

theorem toComplex_partialSum : ∀ n : ℕ, GaussianInt.toComplex (partialSum (n + 1)) =
    n.factorial * ∑ m ∈ range (n + 1), I ^ m / m.factorial := by
  intro n
  induction n with
  | zero => simp [partialSum]
  | succ n ih =>
    have hfact : ((n + 1).factorial : ℂ) ≠ 0 := Nat.cast_ne_zero.2 (Nat.factorial_ne_zero _)
    have hunit : GaussianInt.toComplex ⟨0, 1⟩ = I := by simp [GaussianInt.toComplex_def']
    rw [partialSum, map_add, map_mul, map_natCast, ih, map_pow, hunit, sum_range_succ _ (n + 1),
      mul_add, mul_div_cancel₀ _ hfact, ← mul_assoc, Nat.factorial_succ, Nat.cast_mul]

/-- The power of twenty terms, over that of `19!`. -/
def numerator (n : ℕ) : GaussianInt := partialSum 20 ^ n

def denominator (n : ℕ) : ℕ := Nat.factorial 19 ^ n

theorem denominator_pos (n : ℕ) : 0 < denominator n := Nat.pow_pos (Nat.factorial_pos 19)

theorem norm_exp_sub_le :
    ‖exp I - GaussianInt.toComplex (partialSum 20) / (Nat.factorial 19 : ℕ)‖ ≤ 1 / 10 ^ 18 := by
  have hfact : ((Nat.factorial 19 : ℕ) : ℂ) ≠ 0 := Nat.cast_ne_zero.2 (Nat.factorial_ne_zero _)
  rw [toComplex_partialSum 19, mul_div_cancel_left₀ _ hfact]
  refine (exp_bound norm_I.le (by decide : 0 < 20)).trans ?_
  norm_num [Nat.factorial]

theorem norm_pow_sub_pow_le {a b : ℂ} {ε : ℝ} (ha : ‖a‖ = 1) (hab : ‖a - b‖ ≤ ε) (n : ℕ) :
    ‖a ^ n - b ^ n‖ ≤ (1 + ε) ^ n - 1 := by
  have hb : ‖b‖ ≤ 1 + ε := by
    calc ‖b‖ = ‖a - (a - b)‖ := by rw [sub_sub_cancel]
      _ ≤ ‖a‖ + ‖a - b‖ := norm_sub_le _ _
      _ ≤ 1 + ε := by rw [ha]; gcongr
  induction n with
  | zero => simp
  | succ n ih =>
    have hnonneg : 0 ≤ (1 + ε) ^ n - 1 := (norm_nonneg _).trans ih
    have hsplit : a ^ (n + 1) - b ^ (n + 1) = a ^ n * (a - b) + (a ^ n - b ^ n) * b := by ring
    calc ‖a ^ (n + 1) - b ^ (n + 1)‖
        ≤ ‖a ^ n * (a - b)‖ + ‖(a ^ n - b ^ n) * b‖ := by rw [hsplit]; exact norm_add_le _ _
      _ = ‖a - b‖ + ‖a ^ n - b ^ n‖ * ‖b‖ := by
        rw [Complex.norm_mul, Complex.norm_mul, Complex.norm_pow, ha, one_pow, one_mul]
      _ ≤ ε + ((1 + ε) ^ n - 1) * (1 + ε) := by gcongr
      _ = (1 + ε) ^ (n + 1) - 1 := by ring

/-- **The sine of `n` is close to a fraction.** -/
theorem abs_sin_sub_le {n : ℕ} (hn : n ≤ 64) :
    |Real.sin n - (numerator n).im / denominator n| ≤ 1 / 10 ^ 16 := by
  have hone : ‖exp I‖ = 1 := by simpa using norm_exp_ofReal_mul_I 1
  have hpow := norm_pow_sub_pow_le hone norm_exp_sub_le n
  have hbound : ((1 : ℝ) + 1 / 10 ^ 18) ^ n - 1 ≤ 1 / 10 ^ 16 := by
    calc ((1 : ℝ) + 1 / 10 ^ 18) ^ n - 1 ≤ (1 + 1 / 10 ^ 18) ^ 64 - 1 := by gcongr; norm_num
      _ ≤ 1 / 10 ^ 16 := by norm_num
  have him : (exp I ^ n - (GaussianInt.toComplex (partialSum 20) / (Nat.factorial 19 : ℕ)) ^ n).im =
      Real.sin n - (numerator n).im / denominator n := by
    have hexp : exp I ^ n = exp ((n : ℝ) * I) := by rw [← exp_nat_mul]; simp
    have hfrac : (GaussianInt.toComplex (partialSum 20) / (Nat.factorial 19 : ℕ)) ^ n =
        GaussianInt.toComplex (numerator n) / ((denominator n : ℝ) : ℂ) := by
      rw [div_pow, numerator, map_pow, denominator]
      push_cast
      rfl
    rw [sub_im, hexp, exp_ofReal_mul_I_im, hfrac, div_ofReal_im, GaussianInt.intCast_im]
  rw [← him]
  exact (abs_im_le_norm _).trans (hpow.trans hbound)

/-- `t` is the integer part of `c * |sin n|`, by the fraction. -/
def IsFloor (c n t : ℕ) : Prop :=
  t * denominator n * 10 ^ 16 + c * denominator n ≤ c * (numerator n).im.natAbs * 10 ^ 16 ∧
    c * (numerator n).im.natAbs * 10 ^ 16 + c * denominator n <
      (t + 1) * denominator n * 10 ^ 16

instance (c n t : ℕ) : Decidable (IsFloor c n t) := by
  unfold IsFloor
  infer_instance

/-- **The integer part of a multiple of a sine.** -/
theorem floor_mul_abs_sin {c n t : ℕ} (hn : n ≤ 64) (h : IsFloor c n t) :
    ⌊(c : ℝ) * |Real.sin n|⌋₊ = t := by
  obtain ⟨hle, hlt⟩ := h
  have hd : (0 : ℝ) < denominator n := Nat.cast_pos.2 (denominator_pos n)
  have hfrac : |((numerator n).im : ℝ) / denominator n| =
      ((numerator n).im.natAbs : ℝ) / denominator n := by
    rw [abs_div, abs_of_pos hd, Nat.cast_natAbs, Int.cast_abs]
  have hnear := (abs_abs_sub_abs_le _ _).trans (abs_sin_sub_le hn)
  rw [hfrac, abs_le] at hnear
  have hleR : (t : ℝ) * denominator n * 10 ^ 16 + c * denominator n ≤
      c * (numerator n).im.natAbs * 10 ^ 16 := by exact_mod_cast hle
  have hltR : (c : ℝ) * (numerator n).im.natAbs * 10 ^ 16 + c * denominator n <
      (t + 1) * denominator n * 10 ^ 16 := by exact_mod_cast hlt
  have hq : ((numerator n).im.natAbs : ℝ) / denominator n * denominator n =
      (numerator n).im.natAbs := div_mul_cancel₀ _ hd.ne'
  set q : ℝ := ((numerator n).im.natAbs : ℝ) / denominator n with hqdef
  have hc : (0 : ℝ) ≤ c := Nat.cast_nonneg c
  have hlow : (t : ℝ) ≤ c * (q - 1 / 10 ^ 16) := by
    rw [← hq] at hleR
    have : (t * 10 ^ 16 + c) * (denominator n : ℝ) ≤ (c * q * 10 ^ 16) * denominator n := by
      linarith
    have := le_of_mul_le_mul_right this hd
    linarith
  have hhigh : c * (q + 1 / 10 ^ 16) < (t : ℝ) + 1 := by
    rw [← hq] at hltR
    have : (c * q * 10 ^ 16 + c) * (denominator n : ℝ) < ((t + 1) * 10 ^ 16) * denominator n := by
      linarith
    have := lt_of_mul_lt_mul_right this hd.le
    linarith
  rw [Nat.floor_eq_iff (by positivity)]
  constructor
  · exact hlow.trans (mul_le_mul_of_nonneg_left (by linarith [hnear.1]) hc)
  · exact (mul_le_mul_of_nonneg_left (by linarith [hnear.2]) hc).trans_lt hhigh

end GameServer.Sine
