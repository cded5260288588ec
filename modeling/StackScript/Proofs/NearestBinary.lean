import Mathlib.Algebra.Order.Field.Power
import Mathlib.Data.Rat.Cast.Order
import Mathlib.Tactic.NormNum
import Mathlib.Tactic.Positivity
import Mathlib.Tactic.Ring
import StackScript.Binary64

/-!
Binary numbers by their exact values. A ratio that has the value of a binary number exactly is rounded
to that number, whatever its numerator and its denominator are. Of ratios between two binary numbers
nothing is said here.
-/
namespace StackScript

theorem pow_split {base : ℚ} (positive : 0 < base) (k : Int) :
    base ^ k.toNat = base ^ (-k).toNat * base ^ k := by
  rw [← zpow_natCast, ← zpow_natCast, ← zpow_add₀ positive.ne']
  congr 1
  omega

namespace Binary64

def Scaled.value (scaled : Scaled) : ℚ :=
  scaled.significand * 2 ^ scaled.scale

theorem shifts_le_iff (num den : Nat) (k : Int) :
    den <<< k.toNat ≤ num <<< (-k).toNat ↔ (den : ℚ) * 2 ^ k ≤ num := by
  have split := pow_split (by norm_num : (0 : ℚ) < 2) k
  have positive : (0 : ℚ) < 2 ^ (-k).toNat := by positivity
  rw [Nat.shiftLeft_eq, Nat.shiftLeft_eq, ← Nat.cast_le (α := ℚ)]
  push_cast
  rw [split, mul_left_comm, mul_comm (num : ℚ)]
  exact mul_le_mul_iff_right₀ positive

theorem log2_bounds {n : Nat} (positive : 0 < n) :
    (2 : ℚ) ^ (Nat.log2 n : Int) ≤ n ∧ (n : ℚ) < 2 ^ ((Nat.log2 n : Int) + 1) := by
  have low : 2 ^ Nat.log2 n ≤ n := Nat.log2_self_le positive.ne'
  have high : n < 2 ^ (Nat.log2 n + 1) := Nat.lt_log2_self
  constructor
  · rw [zpow_natCast]
    exact_mod_cast low
  · have cast : ((Nat.log2 n : Int) + 1) = ((Nat.log2 n + 1 : Nat) : Int) := by push_cast; rfl
    rw [cast, zpow_natCast]
    exact_mod_cast high

theorem value_bounds {scaled : Scaled} (significant : 0 < scaled.significand) :
    (2 : ℚ) ^ ((Nat.log2 scaled.significand : Int) + scaled.scale) ≤ scaled.value ∧
      scaled.value < 2 ^ ((Nat.log2 scaled.significand : Int) + scaled.scale + 1) := by
  obtain ⟨low, high⟩ := log2_bounds significant
  have two : (2 : ℚ) ≠ 0 := by norm_num
  have positive : (0 : ℚ) < 2 ^ scaled.scale := by positivity
  constructor
  · rw [zpow_add₀ two]
    exact mul_le_mul_of_nonneg_right low positive.le
  · rw [add_right_comm, zpow_add₀ two]
    exact mul_lt_mul_of_pos_right high positive

theorem log2_eq {n k : Nat} (low : 2 ^ k ≤ n) (high : n < 2 ^ (k + 1)) : Nat.log2 n = k := by
  have positive : n ≠ 0 := by
    have : 0 < 2 ^ k := Nat.two_pow_pos k
    omega
  exact (Nat.log2_eq_iff positive).mpr ⟨low, high⟩

theorem roundHalfEven_exact {den : Nat} (positive : 0 < den) (whole : Nat) :
    roundHalfEven (den * whole) den = whole := by
  have quotient : den * whole / den = whole := Nat.mul_div_cancel_left whole positive
  have rest : den * whole % den = 0 := Nat.mul_mod_right den whole
  simp only [roundHalfEven, quotient, rest]
  rw [if_neg]
  simp only [Nat.mul_zero, Bool.or_eq_true, decide_eq_true_eq, Bool.and_eq_true, beq_iff_eq]
  omega

section Exact

variable {num den : Nat} {scaled : Scaled} (exact : (num : ℚ) = den * scaled.value)
  (positive : 0 < den) (significant : 0 < scaled.significand)
include exact positive significant

theorem num_positive : 0 < num := by
  have significand_pos : (0 : ℚ) < scaled.significand := by exact_mod_cast significant
  have den_pos : (0 : ℚ) < den := by exact_mod_cast positive
  have num_pos : (0 : ℚ) < num := by
    rw [exact, Scaled.value]
    positivity
  exact_mod_cast num_pos

theorem scaleOf_exact : scaleOf num den =
    max (Nat.log2 scaled.significand + scaled.scale - 52) (-1074) := by
  have two : (1 : ℚ) < 2 := by norm_num
  have nonzero : (2 : ℚ) ≠ 0 := by norm_num
  have den_pos : (0 : ℚ) < den := by exact_mod_cast positive
  obtain ⟨num_low, num_high⟩ := log2_bounds (num_positive exact positive significant)
  obtain ⟨den_low, den_high⟩ := log2_bounds positive
  obtain ⟨low, high⟩ := value_bounds significant
  have test := shifts_le_iff num den ((Nat.log2 num : Int) - Nat.log2 den)
  rw [exact, mul_le_mul_iff_right₀ den_pos] at test
  rw [exact] at num_low num_high
  unfold scaleOf
  generalize (Nat.log2 num : Int) = a at *
  generalize (Nat.log2 den : Int) = b at *
  generalize (Nat.log2 scaled.significand : Int) + scaled.scale = f at *
  have value_pos : 0 ≤ scaled.value := le_trans (by positivity) low
  -- the exponent of the value is the difference of the two, or one less
  have upper : b + f < a + 1 := by
    rw [← zpow_lt_zpow_iff_right₀ two, zpow_add₀ nonzero]
    exact lt_of_le_of_lt (mul_le_mul den_low low (by positivity) den_pos.le) num_high
  have lower : a < b + 1 + (f + 1) := by
    rw [← zpow_lt_zpow_iff_right₀ two, zpow_add₀ nonzero (b + 1)]
    exact lt_of_le_of_lt num_low (mul_lt_mul'' den_high high den_pos.le value_pos)
  have settled : (2 : ℚ) ^ (a - b) ≤ scaled.value ↔ a - b ≤ f := by
    constructor
    · intro fits
      have less := (zpow_lt_zpow_iff_right₀ two).mp (lt_of_le_of_lt fits high)
      omega
    · intro fits
      exact le_trans ((zpow_le_zpow_iff_right₀ two).mpr fits) low
  have shift : 53 + (a - b - 53) = a - b := by omega
  simp only [shift, test, settled]
  split <;> omega

omit significant in
theorem significand_exact :
    roundHalfEven (num <<< (-scaled.scale).toNat) (den <<< scaled.scale.toNat) =
      scaled.significand := by
  have split := pow_split (by norm_num : (0 : ℚ) < 2) scaled.scale
  have same : num <<< (-scaled.scale).toNat =
      (den <<< scaled.scale.toNat) * scaled.significand := by
    rw [Nat.shiftLeft_eq, Nat.shiftLeft_eq, ← Nat.cast_inj (R := ℚ)]
    push_cast
    rw [split, exact, Scaled.value]
    ring
  rw [same]
  exact roundHalfEven_exact (by rw [Nat.shiftLeft_eq]; positivity) _

end Exact

structure Parts (magnitude : Nat) (scaled : Scaled) : Prop where
  significant : 0 < scaled.significand
  least : -1074 ≤ scaled.scale
  greatest : scaled.scale ≤ 971
  full : Nat.log2 scaled.significand = 52 ∨ Nat.log2 scaled.significand < 52 ∧ scaled.scale = -1074
  joined : (scaled.scale + 1074).toNat * leadingBit + scaled.significand = magnitude

theorem parts_of_magnitude {magnitude : Nat} (positive : 0 < magnitude)
    (finite : magnitude < infinity) : Parts magnitude (.ofMagnitude magnitude) := by
  unfold infinity at finite
  by_cases small : magnitude < leadingBit
  · rw [Scaled.ofMagnitude, if_pos small]
    have short : Nat.log2 magnitude < 52 := (Nat.log2_lt positive.ne').mpr small
    unfold leadingBit at small
    exact
      { significant := positive
        least := Int.le_refl _
        greatest := by norm_num
        full := .inr ⟨short, rfl⟩
        joined := by simp }
  · rw [Scaled.ofMagnitude, if_neg small]
    have rest : magnitude % leadingBit < leadingBit := Nat.mod_lt _ (by decide)
    have low : 2 ^ 52 ≤ leadingBit + magnitude % leadingBit := Nat.le_add_right leadingBit _
    have high : leadingBit + magnitude % leadingBit < 2 ^ 53 := Nat.add_lt_add_left rest leadingBit
    have full := log2_eq low high
    unfold leadingBit at small ⊢
    exact
      { significant := by simp only; omega
        least := by simp only; omega
        greatest := by simp only; omega
        full := .inl full
        joined := by
          unfold leadingBit
          simp only
          omega }

theorem nearest_exact {magnitude num den : Nat} (positive : 0 < magnitude)
    (finite : magnitude < infinity) (proper : 0 < den)
    (exact : (num : ℚ) = den * (Scaled.ofMagnitude magnitude).value) :
    nearest num den = magnitude := by
  have parts := parts_of_magnitude positive finite
  have num_pos := num_positive exact proper parts.significant
  have scale : scaleOf num den = (Scaled.ofMagnitude magnitude).scale := by
    rw [scaleOf_exact exact proper parts.significant]
    have least := parts.least
    rcases parts.full with full | ⟨small, scale⟩ <;> omega
  rw [nearest, if_neg num_pos.ne']
  simp only [scale, significand_exact exact proper, parts.joined]
  exact Nat.min_eq_right finite.le

theorem value_range {magnitude : Nat} (positive : 0 < magnitude) (finite : magnitude < infinity) :
    (2 : ℚ) ^ (-1074 : Int) ≤ (Scaled.ofMagnitude magnitude).value ∧
      (Scaled.ofMagnitude magnitude).value < 2 ^ (1024 : Int) := by
  have parts := parts_of_magnitude positive finite
  obtain ⟨low, high⟩ := value_bounds parts.significant
  have least := parts.least
  have greatest := parts.greatest
  have two : (1 : ℚ) ≤ 2 := by norm_num
  constructor
  · exact le_trans (zpow_le_zpow_right₀ two (by omega)) low
  · refine lt_of_lt_of_le high (zpow_le_zpow_right₀ two ?_)
    rcases parts.full with full | ⟨small, -⟩ <;> omega

end Binary64
end StackScript
