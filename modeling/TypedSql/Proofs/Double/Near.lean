import TypedSql.Proofs.Double.Rounding

/-! How far a rounding moves a fraction, and what that means for a product, a quotient and several roundings
one after the other. -/

namespace TypedSql

/-- `x` is `v` up to a part of it and an absolute error. -/
def Near (relative absolute x v : ℚ) : Prop :=
  |x - v| ≤ relative * v + absolute

namespace Near

variable {a b c d x y v w : ℚ}

theorem le (h : Near a c x v) : x ≤ v * (1 + a) + c := by
  have hle := (abs_le.1 h).2
  linarith

theorem ge (h : Near a c x v) : v * (1 - a) - c ≤ x := by
  have hge := (abs_le.1 h).1
  linarith

theorem mono (h : Near a c x v) (hab : a ≤ b) (hcd : c ≤ d) (hv : 0 ≤ v) : Near b d x v := by
  have hmul := mul_le_mul_of_nonneg_right hab hv
  exact le_trans h (by linarith)

theorem trans (hx : Near a c x v) (hv : Near b d v w) (ha : 0 ≤ a) :
    Near (a + b + a * b) (c + d * (1 + a)) x w := by
  have hle := mul_le_mul_of_nonneg_left hv.le ha
  have hsum := abs_sub_le x v w
  have hx' : |x - v| ≤ a * v + c := hx
  have hv' : |v - w| ≤ b * w + d := hv
  rw [Near]
  linarith

theorem mul (hx : Near a 0 x v) (hy : Near b 0 y w) (ha : 0 ≤ a) (hv : 0 ≤ v) (hy0 : 0 ≤ y) :
    Near (a + b + a * b) 0 (x * y) (v * w) := by
  have hleft : |x * y - v * y| ≤ a * v * y := by
    rw [← sub_mul, abs_mul, abs_of_nonneg hy0]
    have hx' : |x - v| ≤ a * v + 0 := hx
    nlinarith
  have hright : |v * y - v * w| ≤ v * (b * w) := by
    rw [← mul_sub, abs_mul, abs_of_nonneg hv]
    have hy' : |y - w| ≤ b * w + 0 := hy
    nlinarith
  have hsum := abs_sub_le (x * y) (v * y) (v * w)
  have hle := mul_le_mul_of_nonneg_left hy.le (mul_nonneg ha hv)
  rw [Near]
  linarith

theorem div (hx : Near a c x v) (hy : Near b 0 y w) (hc : 0 ≤ c) (ha : 0 ≤ a) (hb : b < 1)
    (hv : 0 ≤ v) (hw : 0 < w) :
    Near ((a + b) / (1 - b)) (c / (w * (1 - b))) (x / y) (v / w) := by
  have hb' : 0 < 1 - b := by linarith
  have hybound : w * (1 - b) ≤ y := by linarith [hy.ge]
  have hypos : 0 < y := lt_of_lt_of_le (mul_pos hw hb') hybound
  have hx' : |x - v| ≤ a * v + c := hx
  have hy' : |y - w| ≤ b * w + 0 := hy
  have hcross : |x * w - y * v| ≤ ((a + b) * v + c) * w := by
    have hsum := abs_sub_le (x * w) (v * w) (y * v)
    have hleft : |x * w - v * w| ≤ (a * v + c) * w := by
      rw [← sub_mul, abs_mul, abs_of_pos hw]
      exact mul_le_mul_of_nonneg_right hx' hw.le
    have hright : |v * w - y * v| ≤ v * (b * w) := by
      rw [mul_comm y v, ← mul_sub, abs_mul, abs_of_nonneg hv, abs_sub_comm]
      exact mul_le_mul_of_nonneg_left (by linarith) hv
    linarith
  have hgap : 0 ≤ (a + b) / (1 - b) * (v / w) + c / (w * (1 - b)) := by
    have hab : 0 ≤ a + b := by
      rcases le_or_gt 0 b with hb0 | hb0
      · linarith
      · have hyw := hy.le
        have hself := abs_nonneg (y - w)
        nlinarith
    positivity
  rw [Near, div_sub_div x v hypos.ne' hw.ne', abs_div, abs_of_pos (mul_pos hypos hw),
    div_le_iff₀ (mul_pos hypos hw)]
  calc |x * w - y * v| ≤ ((a + b) * v + c) * w := hcross
    _ = ((a + b) / (1 - b) * (v / w) + c / (w * (1 - b))) * (w * (1 - b) * w) := by
        field_simp
    _ ≤ ((a + b) / (1 - b) * (v / w) + c / (w * (1 - b))) * (y * w) := by gcongr

end Near

namespace Double

/-- A number has 53 binary digits unless its power is the smallest one. -/
theorem power_eq_or_le_significand (x : Double) : x.power = -1074 ∨ 2 ^ 52 ≤ x.significand := by
  rw [power, significand, Nat.pow_eq]
  by_cases h : x.biasedExponent = 0
  · left
    omega
  · right
    rw [if_neg h]
    omega

theorem least_power_le (x : Double) : -1074 ≤ x.power := by
  rw [power]
  omega

theorem Covers.near {x : Double} {v : ℚ} (h : x.Covers v) :
    |x.magnitude - v| ≤ 2 * (2 : ℚ) ^ (x.power - 2) := by
  have hlow : (x.quarters : ℚ) - 2 ≤ x.lowEnd := by
    have hnat : x.quarters ≤ x.lowEnd + 2 := by
      rw [lowEnd]
      split <;> omega
    have hcast : (x.quarters : ℚ) ≤ x.lowEnd + 2 := by exact_mod_cast hnat
    linarith
  have hhigh : (x.highEnd : ℚ) = x.quarters + 2 := by
    rw [highEnd]
    push_cast
    ring
  have hvlow := h.low
  have hvhigh := h.high
  have hunit := two_zpow_pos (x.power - 2)
  rw [hhigh] at hvhigh
  rw [← x.quarters_eq, abs_le]
  constructor
  · linarith
  · have hmul := mul_le_mul_of_nonneg_right hlow hunit.le
    linarith

/-- Half of the smallest number. -/
def tiny : ℚ :=
  (2 : ℚ) ^ (-1075 : Int)

theorem tiny_pos : 0 < tiny :=
  two_zpow_pos _

theorem two_mul_least : 2 * (2 : ℚ) ^ (-1074 - 2 : Int) = tiny := by
  rw [tiny, ← zpow_one_add₀ two_ne_zero]
  rfl

/-- The relative error of a rounding, as a part of what is rounded. -/
def epsilon : ℚ :=
  1 / (2 ^ 53 - 1)

theorem near_of_error {x v t : ℚ} (h : |x - v| ≤ x / 2 ^ 53 + t) :
    Near epsilon (t * (1 + epsilon)) x v := by
  have hle := (abs_le.1 h).2
  rw [Near, epsilon]
  norm_num at h hle ⊢
  linarith

variable {x : Double} {v : ℚ}

namespace Covers

theorem error_of_digits (h : x.Covers v) (hdigits : 2 ^ 52 ≤ x.significand) :
    |x.magnitude - v| ≤ x.magnitude / 2 ^ 53 := by
  have hunit := two_zpow_pos (x.power - 2)
  have hquarters : (2 ^ 54 : ℚ) ≤ x.quarters := by
    have hnat : 2 ^ 54 ≤ x.quarters := by
      rw [quarters]
      omega
    exact_mod_cast hnat
  have hmul := mul_le_mul_of_nonneg_right hquarters hunit.le
  refine h.near.trans ?_
  rw [← x.quarters_eq]
  linarith

/-- The error is relative, and where the power is the smallest one, absolute. -/
theorem error (h : x.Covers v) : |x.magnitude - v| ≤ x.magnitude / 2 ^ 53 + tiny := by
  rcases x.power_eq_or_le_significand with hpower | hdigits
  · have hmagnitude := x.magnitude_nonneg
    have hnonneg : 0 ≤ x.magnitude / 2 ^ 53 := by positivity
    have hnear := h.near
    rw [hpower, two_mul_least] at hnear
    linarith
  · have herror := h.error_of_digits hdigits
    have htiny := tiny_pos
    linarith

/-- What is not too small leaves a number all its digits. -/
theorem le_significand (h : x.Covers v) (hv : 2 ^ 53 * tiny ≤ v) : 2 ^ 52 ≤ x.significand := by
  by_contra hlt
  have hpower := x.power_eq_or_le_significand.resolve_right hlt
  have hhigh := h.high
  have hunit := two_zpow_pos (-1074 - 2)
  have hdigits : (x.highEnd : ℚ) ≤ 2 ^ 54 - 2 := by
    have hnat : x.highEnd + 2 ≤ 2 ^ 54 := by
      rw [highEnd, quarters]
      omega
    have hcast : (x.highEnd + 2 : ℚ) ≤ 2 ^ 54 := by exact_mod_cast hnat
    linarith
  have hmul := mul_le_mul_of_nonneg_right hdigits hunit.le
  rw [hpower] at hhigh
  rw [← two_mul_least] at hv
  linarith

/-- Less than half of the smallest number is rounded to zero. -/
theorem eq_zero (h : x.Covers v) (hv : v < tiny) : x.magnitude = 0 := by
  have hlow := h.low
  have hunit := two_zpow_pos (x.power - 2)
  have hleast : (2 : ℚ) ^ (-1074 - 2 : Int) ≤ (2 : ℚ) ^ (x.power - 2) :=
    two_zpow_le (by linarith [x.least_power_le])
  have hend : (x.lowEnd : ℚ) < 2 := by
    rw [← two_mul_least] at hv
    nlinarith
  have hsignificand : x.significand = 0 := by
    have hnat : x.lowEnd < 2 := by exact_mod_cast hend
    rw [lowEnd, quarters] at hnat
    split at hnat <;> omega
  rw [magnitude, hsignificand, Nat.cast_zero, zero_mul]

/-- Where the number has all its digits, the error is relative. -/
theorem near_of_le (h : x.Covers v) (hv : 2 ^ 53 * tiny ≤ v) : Near epsilon 0 x.magnitude v := by
  have herror := h.error_of_digits (h.le_significand hv)
  have hnear := Double.near_of_error (t := 0) (herror.trans (by rw [add_zero]))
  rwa [zero_mul] at hnear

theorem near_of_error (h : x.Covers v) : Near epsilon (tiny * (1 + epsilon)) x.magnitude v :=
  Double.near_of_error h.error

end Covers

theorem tiny_small : 2 ^ 53 * tiny < 1 :=
  calc 2 ^ 53 * tiny = (2 : ℚ) ^ (53 + -1075 : Int) := (two_zpow_add 53 (-1075)).symm
    _ < (2 : ℚ) ^ (0 : Int) := two_zpow_lt (by norm_num)
    _ = 1 := zpow_zero 2

theorem ofNat_near {n : Nat} (hfinite : (ofNat n).isFinite = true) :
    Near epsilon 0 (ofNat n).magnitude n := by
  have hcovers := ofNat_covers hfinite
  rcases Nat.eq_zero_or_pos n with rfl | hpos
  · rw [hcovers.eq_zero (by rw [Nat.cast_zero]; exact tiny_pos)]
    simp [Near]
  · have hone : (1 : ℚ) ≤ n := by exact_mod_cast hpos
    exact hcovers.near_of_le (tiny_small.le.trans hone)

end Double

end TypedSql
