import StackScript.Decimal
import StackScript.Proofs.NearestBinary

/-!
Decimals by their exact values, and the decimal that is written for a binary number: it is read back
as that number. Zeros at the end of the digits make no difference to what is read.
-/
namespace StackScript
namespace Decimal

def value (decimal : Decimal) : ℚ :=
  decimal.digits * 10 ^ decimal.exponent

section Normal

theorem stripZeros_value (digits : Nat) (exponent : Int) :
    (stripZeros digits exponent).value = digits * 10 ^ exponent := by
  fun_induction stripZeros digits exponent with
  | case1 exponent => simp [value]
  | case2 digits exponent nonzero even ih =>
    have whole : digits = digits / 10 * 10 := by omega
    have ten : (10 : ℚ) ≠ 0 := by norm_num
    rw [ih, zpow_add_one₀ ten]
    nth_rewrite 2 [whole]
    push_cast
    ring
  | case3 digits exponent nonzero odd => rfl

theorem stripZeros_proper (digits : Nat) (exponent : Int) :
    stripZeros digits exponent = ⟨0, 0⟩ ∨ (stripZeros digits exponent).digits % 10 ≠ 0 := by
  fun_induction stripZeros digits exponent with
  | case1 exponent => exact .inl rfl
  | case2 digits exponent nonzero even ih => exact ih
  | case3 digits exponent nonzero odd => exact .inr odd

theorem normal_value (decimal : Decimal) : decimal.normal.value = decimal.value :=
  stripZeros_value decimal.digits decimal.exponent

theorem normal_normal (decimal : Decimal) : decimal.normal.normal = decimal.normal := by
  rcases stripZeros_proper decimal.digits decimal.exponent with zero | proper
  · have same : decimal.normal = ⟨0, 0⟩ := zero
    rw [same]
    decide +kernel
  · have odd : decimal.normal.digits % 10 ≠ 0 := proper
    rw [normal, stripZeros, if_neg (by omega), if_neg odd]

theorem normal_zeros (digits : Nat) (exponent : Int) (zeros : Nat) :
    normal ⟨digits * 10 ^ zeros, exponent - zeros⟩ = normal ⟨digits, exponent⟩ := by
  induction zeros with
  | zero => simp
  | succ zeros ih =>
    rw [← ih]
    simp only [normal]
    rcases Nat.eq_zero_or_pos digits with rfl | positive
    · simp [stripZeros]
    · have shorter : digits * 10 ^ (zeros + 1) = digits * 10 ^ zeros * 10 := by
        rw [pow_succ, mul_assoc]
      have more : 0 < digits * 10 ^ zeros := by positivity
      have next : exponent - ((zeros + 1 : Nat) : Int) + 1 = exponent - zeros := by omega
      rw [stripZeros, if_neg (by omega), if_pos (by omega), shorter, Nat.mul_div_cancel _ (by decide),
        next]

theorem magnitude_normal (decimal : Decimal) : decimal.normal.magnitude = decimal.magnitude := by
  simp only [magnitude, normal_normal]

theorem magnitude_zeros (digits : Nat) (exponent : Int) (zeros : Nat) :
    magnitude ⟨digits * 10 ^ zeros, exponent - zeros⟩ = magnitude ⟨digits, exponent⟩ := by
  simp only [magnitude, normal_zeros]

end Normal

theorem ratio_exact (decimal : Decimal) :
    (decimal.ratio.1 : ℚ) = decimal.ratio.2 * decimal.value ∧ 0 < decimal.ratio.2 := by
  have split := pow_split (by norm_num : (0 : ℚ) < 10) decimal.exponent
  constructor
  · simp only [ratio, value, Nat.pow_eq]
    push_cast
    rw [split]
    ring
  · simp only [ratio, Nat.pow_eq]
    positivity

theorem point_bounds {decimal : Decimal} (positive : 0 < decimal.digits) :
    (10 : ℚ) ^ (decimal.point - 1) ≤ decimal.value ∧ decimal.value < 10 ^ decimal.point := by
  have some : 0 < decimal.digitChars.length := Nat.length_toDigits_pos
  have ten : (10 : ℚ) ≠ 0 := by norm_num
  have power : (0 : ℚ) < 10 ^ decimal.exponent := by positivity
  have high : decimal.digits < 10 ^ decimal.digitChars.length :=
    (Nat.length_toDigits_le_iff (by decide) some).mp (Nat.le_refl _)
  have low : 10 ^ (decimal.digitChars.length - 1) ≤ decimal.digits := by
    rcases Nat.eq_zero_or_pos (decimal.digitChars.length - 1) with one | more
    · rw [one]
      exact positive
    · refine Nat.le_of_not_lt fun less => ?_
      have shorter := (Nat.length_toDigits_le_iff (b := 10) (by decide) more).mpr less
      rw [digitChars] at shorter some more
      omega
  have first : decimal.point - 1 = ((decimal.digitChars.length - 1 : Nat) : Int) + decimal.exponent := by
    rw [point]
    omega
  constructor
  · rw [first, zpow_add₀ ten, zpow_natCast]
    exact mul_le_mul_of_nonneg_right (by exact_mod_cast low) power.le
  · rw [point, zpow_add₀ ten, zpow_natCast]
    exact mul_lt_mul_of_pos_right (by exact_mod_cast high) power

theorem greatest_below : (2 : ℚ) ^ (1024 : Int) < 10 ^ (309 : Int) := by
  have whole : 2 ^ 1024 < 10 ^ 309 := by decide +kernel
  exact_mod_cast whole

theorem least_above : (10 : ℚ) ^ (-324 : Int) ≤ 2 ^ (-1074 : Int) := by
  have whole : 2 ^ 1074 ≤ 10 ^ 324 := by decide +kernel
  rw [zpow_neg, zpow_neg]
  refine inv_anti₀ (by positivity) ?_
  exact_mod_cast whole

theorem magnitude_exact {decimal : Decimal} {magnitude : Nat} (positive : 0 < magnitude)
    (finite : magnitude < Binary64.infinity)
    (exact : decimal.value = (Binary64.Scaled.ofMagnitude magnitude).value) :
    decimal.magnitude = magnitude := by
  rw [← normal_value] at exact
  obtain ⟨low, high⟩ := Binary64.value_range positive finite
  rw [← exact] at low high
  have significant : 0 < decimal.normal.digits := by
    refine Nat.pos_of_ne_zero fun zero => ?_
    have above : (0 : ℚ) < decimal.normal.value := lt_of_lt_of_le (by positivity) low
    rw [value, zero, Nat.cast_zero, zero_mul] at above
    exact lt_irrefl _ above
  obtain ⟨point_low, point_high⟩ := point_bounds significant
  have ten : (1 : ℚ) < 10 := by norm_num
  have greatest : decimal.normal.point - 1 < 309 := by
    rw [← zpow_lt_zpow_iff_right₀ ten]
    exact lt_of_le_of_lt point_low (lt_trans high greatest_below)
  have least : -324 < decimal.normal.point := by
    rw [← zpow_lt_zpow_iff_right₀ ten]
    exact lt_of_le_of_lt (le_trans least_above low) point_high
  obtain ⟨ratio, proper⟩ := ratio_exact decimal.normal
  rw [exact] at ratio
  simp only [Decimal.magnitude]
  rw [if_neg significant.ne', if_neg (by omega), if_neg (by omega)]
  exact Binary64.nearest_exact positive finite proper ratio

theorem ofScaled_value (scaled : Binary64.Scaled) : (ofScaled scaled).value = scaled.value := by
  have ten : (10 : ℚ) = 5 * 2 := by norm_num
  unfold ofScaled
  split
  · rename_i whole
    simp only [value, Binary64.Scaled.value, Nat.shiftLeft_eq, zpow_zero, mul_one]
    push_cast
    rw [← zpow_natCast, Int.toNat_of_nonneg whole]
  · rename_i broken
    have split := pow_split (by norm_num : (0 : ℚ) < 5) (-scaled.scale)
    have none : (- -scaled.scale).toNat = 0 := by omega
    rw [none, pow_zero, one_mul] at split
    simp only [value, Binary64.Scaled.value, Nat.pow_eq]
    push_cast
    rw [split, ten, mul_zpow, zpow_neg, mul_assoc, inv_mul_cancel_left₀ (by positivity)]

theorem around_magnitude {magnitude : Nat} {value : Binary64.Scaled} {exponent : Int}
    {found : Decimal} (around : around? magnitude value exponent = some found) :
    found.magnitude = magnitude := by
  simp only [around?] at around
  split_ifs at around <;> cases around <;> assumption

theorem search_magnitude {magnitude : Nat} {value : Binary64.Scaled} {exponent : Int} {count : Nat}
    {found : Decimal} (searched : search magnitude value exponent count = some found) :
    found.magnitude = magnitude := by
  induction count generalizing exponent with
  | zero => cases searched
  | succ count ih =>
    rw [search] at searched
    split at searched
    · cases searched
      exact around_magnitude ‹_›
    · exact ih searched

/-- What is written for a binary number is read back as that number. -/
theorem shortest_magnitude {magnitude : Nat} (finite : magnitude < Binary64.infinity) :
    (shortest magnitude).magnitude = magnitude := by
  rcases Nat.eq_zero_or_pos magnitude with rfl | positive
  · decide +kernel
  · rw [shortest, if_neg positive.ne']
    dsimp only
    rw [magnitude_normal]
    cases searched : search magnitude (.ofMagnitude magnitude)
        (pointOf (.ofMagnitude magnitude) - 1) 17 with
    | some found => exact search_magnitude searched
    | none => exact magnitude_exact positive finite (ofScaled_value _)

end Decimal
end StackScript
