import TypedSql.Proofs.Json.Value

/-! The float that is read for a numeral. Its digits and its power of ten are rounded, and their product or
quotient is rounded again, so the float is near to the value of the numeral but need not be nearest. -/

namespace TypedSql

namespace Numeral

open Double

/-! ### Powers of ten -/

theorem ten_pow_lt {k : Nat} (hk : k ≤ 308) : ((Nat.pow 10 k : ℕ) : ℚ) < 2 ^ 1024 - 2 ^ 970 := by
  have hlargest : 10 ^ 308 + 2 ^ 970 < 2 ^ 1024 := by decide +kernel
  have hle : 10 ^ k ≤ 10 ^ 308 := pow_le_pow_right₀ (by norm_num) hk
  have hcast : ((Nat.pow 10 k : ℕ) : ℚ) + 2 ^ 970 < 2 ^ 1024 := by
    exact_mod_cast lt_of_le_of_lt (Nat.add_le_add_right hle _) hlargest
  exact lt_sub_iff_add_lt.2 hcast

theorem power_isFinite {k : Nat} (hk : k ≤ 308) : (ofNat (Nat.pow 10 k)).isFinite = true :=
  (ofNat_isFinite_iff _).2 (ten_pow_lt hk)

theorem power_near {k : Nat} (hk : k ≤ 308) :
    Near epsilon 0 (ofNat (Nat.pow 10 k)).magnitude (10 ^ k) := by
  have hnear := ofNat_near (power_isFinite hk)
  rwa [Nat.pow_eq, Nat.cast_pow, Nat.cast_ofNat] at hnear

theorem digits_isFinite {m : Nat} (hm : m < 2 ^ 64) : (ofNat m).isFinite = true := by
  have hlarge : 2 ^ 64 + 2 ^ 970 < 2 ^ 1024 := by decide +kernel
  have hcast : (m : ℚ) + 2 ^ 970 < 2 ^ 1024 := by
    exact_mod_cast lt_trans (Nat.add_lt_add_right hm _) hlarge
  exact (ofNat_isFinite_iff m).2 (lt_sub_iff_add_lt.2 hcast)

theorem scaled_fst_lt (n : Numeral) : n.scaled.1 < 2 ^ 64 :=
  absorb_lt (absorb_lt (by norm_num) _) _

/-- Only zero is rounded to zero. -/
theorem isZero_ofNat {m : Nat} (hm : m < 2 ^ 64) : (ofNat m).isZero = true ↔ m = 0 := by
  constructor
  · intro hzero
    have hle := (ofNat_near (digits_isFinite hm)).ge
    rw [(isZero_iff _).1 hzero] at hle
    have hepsilon : 0 < 1 - epsilon := by
      rw [epsilon]
      norm_num
    have hnonpos : (m : ℚ) ≤ 0 := by
      by_contra hpos
      have hmul := mul_pos (not_le.1 hpos) hepsilon
      linarith
    exact Nat.le_zero.1 (by exact_mod_cast hnonpos)
  · rintro rfl
    rfl

/-- A bound that all relative errors here meet: `epsilon` is a little above `2 ^ -53`. -/
theorem epsilon_bounds : 0 < epsilon ∧ epsilon ≤ 1 / 2 ^ 53 * (1 + 1 / 2 ^ 50) := by
  rw [epsilon]
  norm_num

/-! ### The steps of reading -/

/-- How a magnitude comes about, from the digits that are kept and their power of ten. -/
inductive Magnitude (n : Numeral) : Option Double → Prop
  | quotient {k : Nat} (hk : n.scaled.2 = -k) : Magnitude n (some (divideByPower (ofNat n.scaled.1) k))
  | zero {k : Nat} (hk : n.scaled.2 = k) (hm : n.scaled.1 = 0) : Magnitude n (some (ofNat 0))
  | large {k : Nat} (hk : n.scaled.2 = k) (hm : n.scaled.1 ≠ 0) (hlarge : 308 < k) : Magnitude n none
  | infinite {k : Nat} (hk : n.scaled.2 = k) (hm : n.scaled.1 ≠ 0) (hle : k ≤ 308)
      (hinfinite : ¬ ((ofNat n.scaled.1).times (ofNat (Nat.pow 10 k))).isFinite = true) : Magnitude n none
  | product {k : Nat} (hk : n.scaled.2 = k) (hm : n.scaled.1 ≠ 0) (hle : k ≤ 308)
      (hfinite : ((ofNat n.scaled.1).times (ofNat (Nat.pow 10 k))).isFinite = true) :
      Magnitude n (some ((ofNat n.scaled.1).times (ofNat (Nat.pow 10 k))))

theorem magnitude?_cases (n : Numeral) : Magnitude n (magnitude? n) := by
  rw [magnitude?]
  dsimp only
  by_cases hsign : n.scaled.2 < 0
  · obtain ⟨k, hk⟩ : ∃ k : ℕ, n.scaled.2 = -k := ⟨(-n.scaled.2).toNat, by omega⟩
    rw [if_pos hsign, hk, neg_neg, Int.toNat_natCast]
    exact .quotient hk
  obtain ⟨k, hk⟩ : ∃ k : ℕ, n.scaled.2 = k := ⟨n.scaled.2.toNat, by omega⟩
  rw [if_neg hsign, hk, Int.toNat_natCast]
  have hzero := isZero_ofNat n.scaled_fst_lt
  by_cases hm : n.scaled.1 = 0
  · rw [if_pos (hzero.2 hm), hm]
    exact .zero hk hm
  rw [if_neg (hzero.not.2 hm)]
  by_cases hlarge : 308 < k
  · rw [if_pos (by omega)]
    exact .large hk hm hlarge
  rw [if_neg (by omega)]
  by_cases hfinite : ((ofNat n.scaled.1).times (ofNat (Nat.pow 10 k))).isFinite = true
  · rw [if_pos hfinite]
    exact .product hk hm (by omega) hfinite
  · rw [if_neg hfinite]
    exact .infinite hk hm (by omega) hfinite

/-! ### Products -/

/-- The product that is rounded for a power that is not negative. -/
theorem product_near {n : Numeral} (h : n.Proper) {k : Nat} (hk : n.scaled.2 = k) (hle : k ≤ 308) :
    Near (5 / 2 / 2 ^ 53) 0
      ((ofNat n.scaled.1).magnitude * (ofNat (Nat.pow 10 k)).magnitude) n.size := by
  have hscaled := scaled_near h
  rw [hk, zpow_natCast] at hscaled
  have hmul := (ofNat_near (digits_isFinite n.scaled_fst_lt)).mul (power_near hle)
    epsilon_bounds.1.le (Nat.cast_nonneg _) (magnitude_nonneg _)
  have hpos := epsilon_bounds.1
  have hnear := hmul.trans hscaled (by positivity)
  refine hnear.mono ?_ ?_ n.size_nonneg
  · rw [epsilon]
    norm_num
  · norm_num

theorem limit_eq : (2 : ℚ) ^ 1024 - 2 ^ 970 = 2 ^ 1024 * (1 - 1 / 2 ^ 54) := by
  have hsplit : (2 : ℚ) ^ 1024 = 2 ^ 54 * 2 ^ 970 := pow_add 2 54 970
  generalize (2 : ℚ) ^ 970 = unit at *
  rw [hsplit]
  ring

/-- A numeral that is not read has a value near the largest number, or above it. -/
theorem le_size_of_none {n : Numeral} (h : n.Proper) (hnone : magnitude? n = none) :
    2 ^ 1024 * (1 - 1 / 2 ^ 51) ≤ n.size := by
  have hlimit : (0 : ℚ) < 2 ^ 1024 := by positivity
  have hcases := n.magnitude?_cases
  rw [hnone] at hcases
  cases hcases with
  | @large k hk hm hlarge =>
      have hpower : 2 * 2 ^ 1024 ≤ 10 ^ k :=
        calc 2 * 2 ^ 1024 ≤ 10 ^ 309 := by decide +kernel
          _ ≤ 10 ^ k := Nat.pow_le_pow_right (Nat.succ_pos 9) (by omega)
      have hkept : (2 * 2 ^ 1024 : ℚ) ≤ n.scaled.1 * 10 ^ k := by
        exact_mod_cast le_trans hpower (Nat.le_mul_of_pos_left _ (Nat.pos_of_ne_zero hm))
      have hle := (scaled_near h).le
      rw [hk, zpow_natCast] at hle
      generalize (2 : ℚ) ^ 1024 = limit at *
      linarith
  | infinite hk hm hle hinfinite =>
      have hnear := (product_near h hk hle).le
      rw [times_isFinite_iff, not_lt, limit_eq] at hinfinite
      generalize (2 : ℚ) ^ 1024 = limit at *
      linarith

/-- Every numeral whose value is well above the largest number is not read. -/
theorem none_of_le_size {n : Numeral} (h : n.Proper) (hsize : 2 ^ 1024 * (1 + 1 / 2 ^ 51) ≤ n.size) :
    magnitude? n = none := by
  have hkept := (scaled_near h).ge
  have hlimit : (2 ^ 64 : ℚ) < 2 ^ 1024 := by
    have hnat : 2 ^ 64 < 2 ^ 1024 := by decide +kernel
    exact_mod_cast hnat
  have hcases := n.magnitude?_cases
  cases hmagnitude : magnitude? n with
  | none => rfl
  | some x =>
      rw [hmagnitude] at hcases
      exfalso
      cases hcases with
      | @quotient k hk =>
          have hdigits : (n.scaled.1 : ℚ) < 2 ^ 64 := by exact_mod_cast n.scaled_fst_lt
          have hpow : (10 : ℚ) ^ n.scaled.2 ≤ 1 := zpow_le_one_of_nonpos₀ (by norm_num) (by omega)
          have hnonneg : (0 : ℚ) ≤ n.scaled.1 := Nat.cast_nonneg _
          have hle := mul_le_of_le_one_right hnonneg hpow
          generalize (2 : ℚ) ^ 1024 = limit at *
          linarith
      | zero hk hm =>
          rw [hm, Nat.cast_zero, zero_mul] at hkept
          generalize (2 : ℚ) ^ 1024 = limit at *
          linarith
      | product hk hm hle hfinite =>
          have hnear := (product_near h hk hle).ge
          rw [times_isFinite_iff, limit_eq] at hfinite
          generalize (2 : ℚ) ^ 1024 = limit at *
          linarith

/-! ### Quotients -/

theorem power_le {k : Nat} (hk : k ≤ 308) :
    (10 : ℚ) ^ k / 2 ≤ (ofNat (Nat.pow 10 k)).magnitude := by
  have hge := (power_near hk).ge
  have hpow : (0 : ℚ) < 10 ^ k := by positivity
  have hhalf : 1 / 2 ≤ 1 - epsilon := by
    rw [epsilon]
    norm_num
  linarith [mul_le_mul_of_nonneg_left hhalf hpow.le]

theorem power_ne_zero {k : Nat} (hk : k ≤ 308) : (ofNat (Nat.pow 10 k)).magnitude ≠ 0 := by
  have hpow : (0 : ℚ) < 10 ^ k := by positivity
  have hle := power_le hk
  linarith

/-- A number that is not large stays finite when it is divided. -/
theorem dividedBy_isFinite {x : Double} (hx : x.magnitude ≤ 2 ^ 66) {k : Nat} (hk : k ≤ 308) :
    (x.dividedBy (ofNat (Nat.pow 10 k))).isFinite = true := by
  rw [dividedBy_isFinite_iff (power_ne_zero hk), limit_eq]
  have hone : (1 : ℚ) ≤ 10 ^ k := one_le_pow₀ (by norm_num)
  have hle := power_le hk
  have hdiv : x.magnitude / (ofNat (Nat.pow 10 k)).magnitude ≤ 2 ^ 67 := by
    rw [div_le_iff₀ (by linarith)]
    linarith
  have hlimit : (2 ^ 68 : ℚ) < 2 ^ 1024 := by
    have hnat : 2 ^ 68 < 2 ^ 1024 := by decide +kernel
    exact_mod_cast hnat
  generalize (2 : ℚ) ^ 1024 = limit at *
  linarith

theorem dividedBy_near {x : Double} (hx : x.magnitude ≤ 2 ^ 66) {k : Nat} (hk : k ≤ 308) {c d v : ℚ}
    (hnear : Near c d x.magnitude v) (hc : 0 ≤ c) (hd : 0 ≤ d) (hv : 0 ≤ v) :
    Near (epsilon + (c + epsilon) / (1 - epsilon) + epsilon * ((c + epsilon) / (1 - epsilon)))
      (tiny * (1 + epsilon) + d / (10 ^ k * (1 - epsilon)) * (1 + epsilon))
      (x.dividedBy (ofNat (Nat.pow 10 k))).magnitude (v / 10 ^ k) := by
  have hfinite := dividedBy_isFinite hx hk
  have hquotient := (dividedBy_covers (power_ne_zero hk) hfinite).near_of_error
  have hpow : (0 : ℚ) < 10 ^ k := by positivity
  have hone : epsilon < 1 := by
    rw [epsilon]
    norm_num
  exact hquotient.trans (hnear.div (power_near hk) hd hc hone hv hpow) epsilon_bounds.1.le

/-- What is zero stays zero. -/
theorem divideByPower_of_magnitude {x : Double} (hx : x.magnitude = 0) (hfinite : x.isFinite = true)
    (hsign : x.isNegative = false) (k : Nat) : (divideByPower x k).magnitude = 0 ∧
      (divideByPower x k).isFinite = true ∧ (divideByPower x k).isNegative = false := by
  rw [divideByPower]
  by_cases hk : k ≤ 308
  · have hfinite := dividedBy_isFinite (x := x) (by rw [hx]; positivity) hk
    have hcovers := dividedBy_covers (power_ne_zero hk) hfinite
    rw [hx, zero_div] at hcovers
    rw [if_pos hk]
    exact ⟨hcovers.eq_zero tiny_pos, hfinite, dividedBy_isNegative _ _⟩
  · rw [if_neg hk, if_pos ((isZero_iff x).2 hx)]
    exact ⟨hx, hfinite, hsign⟩

/-- A float as it is read for a value, up to a relative error. -/
structure ReadFor (relative : ℚ) (x : Double) (v : ℚ) : Prop where
  isFinite : x.isFinite = true
  isNegative : x.isNegative = false
  near : Near relative (2 * tiny) x.magnitude v

/-- One division, by a power that is a number itself. -/
theorem quotient_near {m : Nat} (hm : m < 2 ^ 64) {k : Nat} (hk : k ≤ 308) :
    Near (13 / 4 / 2 ^ 53) (9 / 8 * tiny)
      ((ofNat m).dividedBy (ofNat (Nat.pow 10 k))).magnitude (m / 10 ^ k) := by
  have hdigits := ofNat_near (digits_isFinite hm)
  have hcast : (m : ℚ) ≤ 2 ^ 64 := by exact_mod_cast hm.le
  have hlarge : (ofNat m).magnitude ≤ 2 ^ 66 := by
    have hle := hdigits.le
    rw [epsilon] at hle
    linarith
  have htiny := tiny_pos
  refine (dividedBy_near hlarge hk hdigits epsilon_bounds.1.le le_rfl (Nat.cast_nonneg m)).mono ?_ ?_
    (by positivity)
  · rw [epsilon]
    norm_num
  · rw [epsilon, zero_div]
    linarith

theorem ten_pow_large {k : Nat} (hk : 308 ≤ k) :
    (2 : ℚ) ^ 120 ≤ 10 ^ k ∧ 1 ≤ 10 ^ k * (2 ^ 52 * tiny) := by
  have hnat : 2 ^ 1023 ≤ 10 ^ k :=
    calc 2 ^ 1023 ≤ 10 ^ 308 := by decide +kernel
      _ ≤ 10 ^ k := pow_le_pow_right₀ (by norm_num) hk
  have hcast : (2 : ℚ) ^ 1023 ≤ 10 ^ k := by exact_mod_cast hnat
  have hinverse : (2 : ℚ) ^ 1023 * (2 ^ 52 * tiny) = 1 := by
    rw [tiny, ← mul_assoc, ← pow_add, ← zpow_natCast, ← two_zpow_add]
    rfl
  constructor
  · exact (pow_le_pow_right₀ one_le_two (by norm_num)).trans hcast
  · exact hinverse.symm.trans_le
      (mul_le_mul_of_nonneg_right hcast (mul_nonneg (by positivity) tiny_pos.le))

/-- One step of a division that takes several. The power is named, so that it is not computed. -/
theorem divideByPower_step {x : Double} {k : Nat} (hk : ¬ k ≤ 308) (hzero : ¬ x.isZero = true) :
    ∃ p, p = 308 ∧ divideByPower x k = divideByPower (x.dividedBy (ofNat (Nat.pow 10 p))) (k - p) := by
  refine ⟨308, rfl, ?_⟩
  rw [divideByPower, if_neg hk, if_neg hzero]

/-- A second division, of what is so small that a third one leaves nothing. -/
theorem divideByPower_again {y : Double} {w : ℚ} (hfinite : y.isFinite = true)
    (hsign : y.isNegative = false) (hnear : Near (13 / 4 / 2 ^ 53) (9 / 8 * tiny) y.magnitude w)
    (hw : 0 ≤ w) (hsmall : w ≤ 2 ^ 116 * tiny) {j : Nat} (hj : 1 ≤ j) :
    ReadFor (6 / 2 ^ 53) (divideByPower y j) (w / 10 ^ j) := by
  have htiny := tiny_pos
  have hle := hnear.le
  have hbound : y.magnitude ≤ 2 ^ 117 * tiny := by linarith
  have hlarge : y.magnitude ≤ 2 ^ 66 := by linarith [tiny_small]
  by_cases hk : j ≤ 308
  · rw [divideByPower, if_pos hk]
    refine ⟨dividedBy_isFinite hlarge hk, dividedBy_isNegative _ _, ?_⟩
    refine (dividedBy_near hlarge hk hnear (by norm_num) (by linarith) hw).mono ?_ ?_ (by positivity)
    · rw [epsilon]
      norm_num
    · have hten : (10 : ℚ) ≤ 10 ^ j := by
        simpa using pow_le_pow_right₀ (show (1 : ℚ) ≤ 10 by norm_num) hj
      have hdiv : 9 / 8 * tiny / (10 ^ j * (1 - epsilon)) ≤ 1 / 4 * tiny := by
        rw [div_le_iff₀ (by rw [epsilon]; norm_num), epsilon]
        nlinarith
      rw [epsilon] at hdiv ⊢
      nlinarith
  · have hpow : (2 : ℚ) ^ 120 ≤ 10 ^ j := (ten_pow_large (by omega)).1
    have hvalue : w / 10 ^ j ≤ tiny := by
      rw [div_le_iff₀ (by positivity)]
      nlinarith
    -- Nothing is left of what is read, and the value is no larger than the error may be.
    have hnothing {x : Double} (hx : x.magnitude = 0) :
        Near (6 / 2 ^ 53) (2 * tiny) x.magnitude (w / 10 ^ j) := by
      have hnonneg : 0 ≤ w / 10 ^ j := by positivity
      rw [Near, hx, zero_sub, abs_neg, abs_of_nonneg hnonneg]
      linarith
    by_cases hzero : y.isZero = true
    · rw [divideByPower, if_neg hk, if_pos hzero]
      exact ⟨hfinite, hsign, hnothing ((isZero_iff y).1 hzero)⟩
    · obtain ⟨p, hp, hstep⟩ := divideByPower_step hk hzero
      have hdivisor : (2 : ℚ) ^ 120 / 2 ≤ (ofNat (Nat.pow 10 p)).magnitude :=
        (div_le_div_of_nonneg_right (ten_pow_large hp.ge).1 zero_le_two).trans (power_le hp.le)
      have hvanishes : y.magnitude / (ofNat (Nat.pow 10 p)).magnitude < tiny := by
        rw [div_lt_iff₀ (lt_of_lt_of_le (by positivity) hdivisor)]
        calc y.magnitude ≤ 2 ^ 117 * tiny := hbound
          _ < tiny * (2 ^ 120 / 2) := by linarith
          _ ≤ tiny * (ofNat (Nat.pow 10 p)).magnitude := by gcongr
      have hquotient := dividedBy_isFinite hlarge hp.le
      have hcovers := dividedBy_covers (power_ne_zero hp.le) hquotient
      obtain ⟨hmagnitude, hfinal, hfinalSign⟩ := divideByPower_of_magnitude
        (hcovers.eq_zero hvanishes) hquotient (dividedBy_isNegative _ _) (j - p)
      rw [hstep]
      exact ⟨hfinal, hfinalSign, hnothing hmagnitude⟩

theorem divideByPower_readFor {m : Nat} (hm : m < 2 ^ 64) (k : Nat) :
    ReadFor (6 / 2 ^ 53) (divideByPower (ofNat m) k) (m / 10 ^ k) := by
  have htiny := tiny_pos
  have hcast : (m : ℚ) < 2 ^ 64 := by exact_mod_cast hm
  have hlarge : (ofNat m).magnitude ≤ 2 ^ 66 := by
    have hle := (ofNat_near (digits_isFinite hm)).le
    rw [epsilon] at hle
    linarith
  by_cases hk : k ≤ 308
  · rw [divideByPower, if_pos hk]
    refine ⟨dividedBy_isFinite hlarge hk, dividedBy_isNegative _ _, ?_⟩
    exact (quotient_near hm hk).mono (by norm_num) (by linarith) (by positivity)
  by_cases hzero : (ofNat m).isZero = true
  · rw [divideByPower, if_neg hk, if_pos hzero]
    obtain rfl := (isZero_ofNat hm).1 hzero
    rw [Nat.cast_zero, zero_div]
    refine ⟨rfl, rfl, ?_⟩
    rw [Near, (isZero_iff _).1 hzero, sub_self, abs_zero]
    linarith
  · obtain ⟨p, hp, hstep⟩ := divideByPower_step hk hzero
    obtain ⟨j, rfl⟩ : ∃ j, k = p + j := ⟨k - p, by omega⟩
    have hpos : (0 : ℚ) < 10 ^ p := by positivity
    have hsmall : (m / 10 ^ p : ℚ) ≤ 2 ^ 116 * tiny := by
      have hten := (ten_pow_large hp.ge).2
      rw [div_le_iff₀ hpos]
      linarith
    rw [hstep, Nat.add_sub_cancel_left, pow_add, ← div_div]
    exact divideByPower_again (dividedBy_isFinite hlarge hp.le) (dividedBy_isNegative _ _)
      (quotient_near hm hp.le) (by positivity) hsmall (by omega)

/-! ### Reading -/

/-- What is read for a numeral is near to its value. -/
theorem magnitude?_readFor {n : Numeral} (h : n.Proper) {x : Double} (hx : magnitude? n = some x) :
    ReadFor (13 / 2 / 2 ^ 53) x n.size := by
  have htiny := tiny_pos
  have hscaled := scaled_near h
  have hsize := n.size_nonneg
  have hcases := n.magnitude?_cases
  rw [hx] at hcases
  cases hcases with
  | @quotient k hk =>
      rw [hk, zpow_neg, zpow_natCast, ← div_eq_mul_inv] at hscaled
      obtain ⟨hfinite, hsign, hnear⟩ := divideByPower_readFor n.scaled_fst_lt k
      refine ⟨hfinite, hsign, (hnear.trans hscaled (by norm_num)).mono ?_ ?_ hsize⟩
      · norm_num
      · linarith
  | zero hk hm =>
      rw [hm, Nat.cast_zero, zero_mul] at hscaled
      refine ⟨rfl, rfl, ?_⟩
      rw [(isZero_iff (ofNat 0)).1 rfl]
      exact hscaled.mono (by norm_num) (by linarith) hsize
  | product hk hm hle hfinite =>
      have hcovers := (times_covers hfinite).near_of_error
      refine ⟨hfinite, times_isNegative _ _,
        (hcovers.trans (product_near h hk hle) epsilon_bounds.1.le).mono ?_ ?_ hsize⟩
      · rw [epsilon]
        norm_num
      · rw [epsilon, zero_mul, add_zero]
        linarith

theorem power_magnitude {k : Nat} (hk : k ≤ 22) : (ofNat (Nat.pow 10 k)).magnitude = 10 ^ k := by
  have hfive : 5 ^ k < 2 ^ 53 :=
    (Nat.pow_le_pow_right (by norm_num) hk).trans_lt (by norm_num : 5 ^ 22 < 2 ^ 53)
  have hten : Nat.pow 10 k = 5 ^ k * 2 ^ k := Nat.mul_pow 5 2 k
  rw [hten, ofNat_magnitude hfive (hten ▸ power_isFinite (by omega))]
  push_cast
  rw [← mul_pow]
  norm_num

theorem digits_magnitude {m : Nat} (hm : m < 2 ^ 53) : (ofNat m).magnitude = m := by
  have hfinite : (ofNat (m * 2 ^ 0)).isFinite = true := digits_isFinite (by omega)
  have hmagnitude := ofNat_magnitude hm hfinite
  rwa [pow_zero, Nat.mul_one, pow_zero, mul_one] at hmagnitude

/-- Few digits and a small power of ten are numbers themselves, so that only one rounding is left. -/
theorem magnitude?_covers {n : Numeral} (hdigits : n.digits < 2 ^ 53) (hlow : -22 ≤ n.scale)
    (hhigh : n.scale ≤ 22) : ∃ x, magnitude? n = some x ∧ x.Covers n.size := by
  have hscaled : n.scaled = (n.digits, n.scale) := scaled_of_lt (by omega)
  have hexact := digits_magnitude hdigits
  have hcases := n.magnitude?_cases
  rw [size]
  generalize magnitude? n = result at *
  cases hcases with
  | @quotient k hk =>
      rw [hscaled] at hk ⊢
      dsimp only at hk ⊢
      have hfinite : ((ofNat n.digits).dividedBy (ofNat (Nat.pow 10 k))).isFinite = true := by
        refine dividedBy_isFinite ?_ (by omega)
        rw [hexact]
        exact_mod_cast hdigits.le.trans (by norm_num)
      have hcovers := dividedBy_covers (power_ne_zero (by omega)) hfinite
      rw [hexact, power_magnitude (by omega)] at hcovers
      rw [divideByPower, if_pos (by omega), hk, zpow_neg, zpow_natCast, ← div_eq_mul_inv]
      exact ⟨_, rfl, hcovers⟩
  | zero hk hm =>
      rw [hscaled] at hm
      dsimp only at hm
      rw [hm, Nat.cast_zero, zero_mul]
      exact ⟨_, rfl, covers_zero⟩
  | large hk hm hlarge =>
      rw [hscaled] at hk
      dsimp only at hk
      omega
  | @infinite k hk hm hle hinfinite =>
      rw [hscaled] at hk hinfinite
      dsimp only at hk hinfinite
      rw [times_isFinite_iff, hexact, power_magnitude (by omega), lt_sub_iff_add_lt] at hinfinite
      have hlarge : 2 ^ 53 * 10 ^ 22 + 2 ^ 970 < 2 ^ 1024 := by decide +kernel
      have hproduct : n.digits * 10 ^ k ≤ 2 ^ 53 * 10 ^ 22 :=
        Nat.mul_le_mul hdigits.le (Nat.pow_le_pow_right (by norm_num) (by omega))
      exact absurd (by exact_mod_cast lt_of_le_of_lt (Nat.add_le_add_right hproduct _) hlarge) hinfinite
  | @product k hk hm hle hfinite =>
      rw [hscaled] at hk hfinite ⊢
      dsimp only at hk hfinite ⊢
      have hcovers := times_covers hfinite
      rw [hexact, power_magnitude (by omega)] at hcovers
      rw [hk, zpow_natCast]
      exact ⟨_, rfl, hcovers⟩

end Numeral

end TypedSql
