import Mathlib.Tactic.Linarith
import Mathlib.Tactic.Ring
import Mathlib.Tactic.FieldSimp
import Mathlib.Tactic.Positivity
import Mathlib.Tactic.GCongr
import Mathlib.Algebra.Order.Field.Power
import Mathlib.Algebra.Order.Ring.Rat
import TypedSql.Decimal.Shortest

/-! Binary64 numbers as rational numbers. A fraction is rounded to the number whose interval it lies in,
and the larger ones become infinite. -/

namespace TypedSql

namespace Double

/-- The absolute value of a finite number. -/
def magnitude (x : Double) : ℚ :=
  x.significand * (2 : ℚ) ^ x.power

theorem magnitude_nonneg (x : Double) : 0 ≤ x.magnitude := by
  rw [magnitude]
  positivity

/-! ### Fractions -/

theorem quotient_snd_pos (x : Double) : 0 < x.quotient.2 := by
  rw [quotient]
  split
  · exact Nat.one_pos
  · exact Nat.two_pow_pos _

theorem quotient_eq (x : Double) : (x.quotient.1 : ℚ) / x.quotient.2 = x.magnitude := by
  rw [quotient, magnitude]
  by_cases hq : 0 ≤ x.power
  · lift x.power to ℕ using hq with q
    simp [Nat.pow_eq]
  · obtain ⟨q, hq'⟩ : ∃ q : ℕ, x.power = -q := ⟨(-x.power).toNat, by omega⟩
    rw [if_neg hq, hq', neg_neg, Int.toNat_natCast, zpow_neg, zpow_natCast, div_eq_mul_inv]
    simp [Nat.pow_eq]

variable {num den : Nat}

theorem inUnits_snd_pos (hd : 0 < den) (q : Int) : 0 < (inUnits num den q).2 := by
  rw [inUnits]
  split
  · exact Nat.mul_pos hd (Nat.two_pow_pos _)
  · exact hd

theorem inUnits_eq (q : Int) : ((inUnits num den q).1 : ℚ) / (inUnits num den q).2 =
    (num / den : ℚ) / (2 : ℚ) ^ q := by
  rw [inUnits]
  by_cases hq : 0 ≤ q
  · lift q to ℕ using hq
    simp [Nat.pow_eq, div_div]
  · obtain ⟨k, rfl⟩ : ∃ k : ℕ, q = -k := ⟨(-q).toNat, by omega⟩
    rw [if_neg hq, neg_neg, Int.toNat_natCast, zpow_neg, zpow_natCast, div_inv_eq_mul]
    simp [Nat.pow_eq]
    ring

/-! ### Rounding to a whole number -/

/-- What a fraction is rounded to stays below a bound exactly where the fraction stays below the next
half, or meets it and the bound is even. -/
theorem roundEven_le_iff {n d : Nat} (hd : 0 < d) (k : Nat) : roundEven n d ≤ k ↔
    (n / d : ℚ) < k + 1 / 2 ∨ (n / d : ℚ) = k + 1 / 2 ∧ k % 2 = 0 := by
  have hdq : (0 : ℚ) < d := by exact_mod_cast hd
  have hlt : (n / d : ℚ) < k + 1 / 2 ↔ 2 * n < (2 * k + 1) * d := by
    rw [div_lt_iff₀ hdq]
    constructor
    · intro h
      have h2 : (2 * n : ℚ) < (2 * k + 1) * d := by linarith
      exact_mod_cast h2
    · intro h
      have h2 : (2 * n : ℚ) < (2 * k + 1) * d := by exact_mod_cast h
      linarith
  have heq : (n / d : ℚ) = k + 1 / 2 ↔ 2 * n = (2 * k + 1) * d := by
    rw [div_eq_iff hdq.ne']
    constructor
    · intro h
      have h2 : (2 * n : ℚ) = (2 * k + 1) * d := by linarith
      exact_mod_cast h2
    · intro h
      have h2 : (2 * n : ℚ) = (2 * k + 1) * d := by exact_mod_cast h
      linarith
  rw [hlt, heq, roundEven]
  have hn : d * (n / d) + n % d = n := Nat.div_add_mod n d
  have hrest := Nat.mod_lt n hd
  generalize n / d = low at hn
  generalize n % d = rest at hn hrest
  subst hn
  have hk : (2 * k + 1) * d = 2 * (k * d) + d := by ring
  have hlow : d * low = low * d := Nat.mul_comm d low
  rw [hk, hlow]
  rcases Nat.lt_trichotomy low k with h | h | h
  · have hmul : (low + 1) * d ≤ k * d := Nat.mul_le_mul_right d h
    rw [Nat.succ_mul] at hmul
    split <;> omega
  · subst h
    split <;> omega
  · have hmul : (k + 1) * d ≤ low * d := Nat.mul_le_mul_right d h
    rw [Nat.succ_mul] at hmul
    split <;> omega

theorem lt_roundEven_iff {n d : Nat} (hd : 0 < d) (k : Nat) : k < roundEven n d ↔
    k + 1 / 2 < (n / d : ℚ) ∨ (n / d : ℚ) = k + 1 / 2 ∧ k % 2 = 1 := by
  have hodd : k % 2 = 1 ↔ ¬ k % 2 = 0 := by omega
  rw [← Nat.not_le, roundEven_le_iff hd, hodd]
  rcases lt_trichotomy (n / d : ℚ) (k + 1 / 2) with h | h | h
  · exact iff_of_false (fun hn => hn (.inl h)) (by rintro (hlt | ⟨heq, -⟩) <;> linarith)
  · rw [h]
    simp
  · refine iff_of_true ?_ (.inl h)
    rintro (hlt | ⟨heq, -⟩) <;> linarith

theorem roundEven_near {n d : Nat} (hd : 0 < d) :
    |(roundEven n d : ℚ) - n / d| ≤ 1 / 2 := by
  have hle := (roundEven_le_iff (n := n) hd (roundEven n d)).1 le_rfl
  rw [abs_le]
  constructor
  · rcases hle with h | h <;> linarith
  · rcases Nat.eq_zero_or_pos (roundEven n d) with hzero | hpos
    · have hv : (0 : ℚ) ≤ n / d := by positivity
      rw [hzero]
      push_cast
      linarith
    · have hlt := (lt_roundEven_iff (n := n) hd (roundEven n d - 1)).1 (by omega)
      have hcast : ((roundEven n d - 1 : ℕ) : ℚ) = roundEven n d - 1 := by
        push_cast [hpos]
        ring
      rw [hcast] at hlt
      rcases hlt with h | h <;> linarith

/-! ### The power of two that a fraction is rounded in -/

theorem two_zpow_pos (q : Int) : (0 : ℚ) < (2 : ℚ) ^ q :=
  zpow_pos two_pos q

theorem two_zpow_add (p q : Int) : (2 : ℚ) ^ (p + q) = (2 : ℚ) ^ p * (2 : ℚ) ^ q :=
  zpow_add₀ two_ne_zero p q

theorem two_zpow_le {p q : Int} (h : p ≤ q) : (2 : ℚ) ^ p ≤ (2 : ℚ) ^ q :=
  zpow_le_zpow_right₀ one_le_two h

theorem two_zpow_lt {p q : Int} (h : p < q) : (2 : ℚ) ^ p < (2 : ℚ) ^ q :=
  zpow_lt_zpow_right₀ one_lt_two h

/-- A fraction lies between two powers of two that its numerator and denominator tell. -/
theorem log2_bounds (hn : num ≠ 0) (hd : den ≠ 0) :
    (2 : ℚ) ^ ((num.log2 : Int) - den.log2 - 1) < num / den ∧
      (num / den : ℚ) < (2 : ℚ) ^ ((num.log2 : Int) - den.log2 + 1) := by
  have hbounds {n : Nat} (h : n ≠ 0) :
      (2 : ℚ) ^ (n.log2 : Int) ≤ n ∧ (n : ℚ) < (2 : ℚ) ^ ((n.log2 : Int) + 1) := by
    have hle := Nat.log2_self_le h
    have hlt := Nat.lt_log2_self (n := n)
    constructor
    · rw [zpow_natCast]
      exact_mod_cast hle
    · rw [← Nat.cast_succ, zpow_natCast]
      exact_mod_cast hlt
  obtain ⟨hnum, hnum'⟩ := hbounds hn
  obtain ⟨hden, hden'⟩ := hbounds hd
  have hpos : (0 : ℚ) < den := by exact_mod_cast Nat.pos_of_ne_zero hd
  have hpow := two_zpow_pos ((num.log2 : Int) - den.log2 - 1)
  constructor
  · rw [lt_div_iff₀ hpos]
    calc (2 : ℚ) ^ ((num.log2 : Int) - den.log2 - 1) * den
        < (2 : ℚ) ^ ((num.log2 : Int) - den.log2 - 1) * (2 : ℚ) ^ ((den.log2 : Int) + 1) := by
          gcongr
      _ = (2 : ℚ) ^ (num.log2 : Int) := by
          rw [← two_zpow_add]
          congr 1
          ring
      _ ≤ num := hnum
  · rw [div_lt_iff₀ hpos]
    calc (num : ℚ) < (2 : ℚ) ^ ((num.log2 : Int) + 1) := hnum'
      _ = (2 : ℚ) ^ ((num.log2 : Int) - den.log2 + 1) * (2 : ℚ) ^ (den.log2 : Int) := by
          rw [← two_zpow_add]
          congr 1
          ring
      _ ≤ (2 : ℚ) ^ ((num.log2 : Int) - den.log2 + 1) * den := by gcongr

/-- The power leaves at most 53 binary digits, and no fewer unless it is the smallest one. -/
theorem roundingPower_spec (hn : num ≠ 0) (hd : den ≠ 0) :
    -1074 ≤ roundingPower num den ∧
      (num / den : ℚ) < 2 ^ 53 * (2 : ℚ) ^ roundingPower num den ∧
      (roundingPower num den ≠ -1074 →
        2 ^ 52 * (2 : ℚ) ^ roundingPower num den ≤ num / den) := by
  obtain ⟨hlow, hhigh⟩ := log2_bounds hn hd
  have hpos := Nat.pos_of_ne_zero hd
  set q : Int := (num.log2 : Int) - den.log2 - 52 with hq
  rw [show (num.log2 : Int) - den.log2 - 1 = 51 + q by omega, two_zpow_add] at hlow
  rw [show (num.log2 : Int) - den.log2 + 1 = 53 + q by omega, two_zpow_add] at hhigh
  have hunits : (inUnits num den q).1 < Nat.pow 2 52 * (inUnits num den q).2 ↔
      (num / den : ℚ) < 2 ^ 52 * (2 : ℚ) ^ q := by
    have hsnd : (0 : ℚ) < (inUnits num den q).2 := by exact_mod_cast inUnits_snd_pos hpos q
    rw [← div_lt_iff₀ (two_zpow_pos q), ← inUnits_eq, div_lt_iff₀ hsnd, Nat.pow_eq]
    constructor
    · intro h
      exact_mod_cast h
    · intro h
      exact_mod_cast h
  have hbelow {p : Int} (h : (num / den : ℚ) < 2 ^ 53 * (2 : ℚ) ^ p) :
      (num / den : ℚ) < 2 ^ 53 * (2 : ℚ) ^ max p (-1074) :=
    h.trans_le (by gcongr; exacts [one_le_two, le_max_left p _])
  have habove {p : Int} (h : 2 ^ 52 * (2 : ℚ) ^ p ≤ num / den) (hne : max p (-1074) ≠ -1074) :
      2 ^ 52 * (2 : ℚ) ^ max p (-1074) ≤ num / den := by
    rwa [max_eq_left (by omega)]
  rw [roundingPower]
  dsimp only
  rw [← hq]
  refine ⟨le_max_right _ _, ?_⟩
  by_cases h : (inUnits num den q).1 < Nat.pow 2 52 * (inUnits num den q).2
  · have hhalf : 2 * (2 : ℚ) ^ (q - 1) = (2 : ℚ) ^ q := by
      rw [← zpow_one_add₀ two_ne_zero]
      congr 1
      ring
    rw [if_pos h]
    refine ⟨hbelow ?_, habove ?_⟩
    · linarith [hunits.1 h]
    · norm_num at hlow ⊢
      linarith
  · rw [if_neg h]
    refine ⟨hbelow (by exact_mod_cast hhigh), habove ?_⟩
    exact not_lt.1 fun hlt => h (hunits.2 hlt)

/-! ### Encoding -/

/-- The number `m * 2 ^ q`, or infinity where it is too large. -/
def encoded (m : Nat) (q : Int) : Double :=
  ⟨UInt64.ofNat (min (if m < Nat.pow 2 52 then m else (q + 1074).toNat * Nat.pow 2 52 + m)
    (2047 * Nat.pow 2 52))⟩

/-- What a rounding encodes: 53 binary digits, the first of which is zero only for the smallest
power. -/
structure Encodable (m : Nat) (q : Int) : Prop where
  least : -1074 ≤ q
  digits : m ≤ 2 ^ 53
  normal : q ≠ -1074 → 2 ^ 52 ≤ m

variable {m : Nat} {q : Int}

theorem encoded_toNat_of_lt (h : m < 2 ^ 52) : (encoded m q).bits.toNat = m := by
  rw [encoded, Nat.pow_eq, if_pos h, Nat.min_eq_left (by omega)]
  exact UInt64.toNat_ofNat_of_lt (show m < 2 ^ 64 by omega)

theorem encoded_toNat_of_le (h : 2 ^ 52 ≤ m) : (encoded m q).bits.toNat =
    min ((q + 1074).toNat * 2 ^ 52 + m) (2047 * 2 ^ 52) := by
  rw [encoded, Nat.pow_eq, if_neg (by omega)]
  refine UInt64.toNat_ofNat_of_lt (show _ < 2 ^ 64 from ?_)
  omega

theorem encoded_toNat_le (m : Nat) (q : Int) : (encoded m q).bits.toNat ≤ 2047 * 2 ^ 52 := by
  rcases Nat.lt_or_ge m (2 ^ 52) with h | h
  · rw [encoded_toNat_of_lt h]
    omega
  · rw [encoded_toNat_of_le h]
    exact Nat.min_le_right _ _

theorem encoded_isNegative (m : Nat) (q : Int) : (encoded m q).isNegative = false := by
  have hbits := encoded_toNat_le m q
  rw [isNegative, decide_eq_false_iff_not, Nat.pow_eq]
  omega

namespace Encodable

/-- The largest power is reached where 1024 binary digits stand before the point. -/
theorem isFinite_iff (h : Encodable m q) :
    (encoded m q).isFinite = true ↔ q < 971 ∨ q = 971 ∧ m < 2 ^ 53 := by
  obtain ⟨hleast, hdigits, hnormal⟩ := h
  rw [isFinite, biasedExponent, decide_eq_true_eq, Nat.pow_eq, Nat.pow_eq]
  rcases Nat.lt_or_ge m (2 ^ 52) with hm | hm
  · rw [encoded_toNat_of_lt hm]
    omega
  · rw [encoded_toNat_of_le hm]
    omega

/-- The fields of a number that was not rounded up to a power of two. -/
theorem fields_of_lt (h : Encodable m q) (hlt : m < 2 ^ 53)
    (hfinite : (encoded m q).isFinite = true) :
    (encoded m q).significand = m ∧ (encoded m q).power = q ∧
      ((encoded m q).fraction = 0 ∧ 1 < (encoded m q).biasedExponent → m = 2 ^ 52 ∧ q ≠ -1074) := by
  rw [h.isFinite_iff] at hfinite
  obtain ⟨hleast, hdigits, hnormal⟩ := h
  rw [significand, power, biasedExponent, fraction]
  simp only [Nat.pow_eq]
  rcases Nat.lt_or_ge m (2 ^ 52) with hm | hm
  · rw [encoded_toNat_of_lt hm]
    split <;> omega
  · rw [encoded_toNat_of_le hm]
    split <;> omega

/-- The fields of a number that was. -/
theorem fields_of_eq (h : Encodable (2 ^ 53) q) (hfinite : (encoded (2 ^ 53) q).isFinite = true) :
    (encoded (2 ^ 53) q).significand = 2 ^ 52 ∧ (encoded (2 ^ 53) q).power = q + 1 ∧
      (encoded (2 ^ 53) q).fraction = 0 ∧ 1 < (encoded (2 ^ 53) q).biasedExponent := by
  rw [h.isFinite_iff] at hfinite
  obtain ⟨hleast, hdigits, hnormal⟩ := h
  rw [significand, power, biasedExponent, fraction]
  simp only [Nat.pow_eq]
  rw [encoded_toNat_of_le (by omega)]
  split <;> omega

theorem magnitude_eq (h : Encodable m q) (hfinite : (encoded m q).isFinite = true) :
    (encoded m q).magnitude = m * (2 : ℚ) ^ q := by
  rw [magnitude]
  rcases Nat.lt_or_ge m (2 ^ 53) with hm | hm
  · obtain ⟨hsignificand, hpower, -⟩ := h.fields_of_lt hm hfinite
    rw [hsignificand, hpower]
  · obtain rfl : m = 2 ^ 53 := Nat.le_antisymm h.digits hm
    obtain ⟨hsignificand, hpower, -⟩ := h.fields_of_eq hfinite
    rw [hsignificand, hpower, two_zpow_add]
    push_cast
    ring

end Encodable

/-! ### Rounding a fraction -/

/-- The number as a rational lies in the interval that rounds to the number. Its ends belong to it
where the significand is even. -/
structure Covers (x : Double) (v : ℚ) : Prop where
  low : x.lowEnd * (2 : ℚ) ^ (x.power - 2) ≤ v
  high : v ≤ x.highEnd * (2 : ℚ) ^ (x.power - 2)
  low_lt : x.significand % 2 = 1 → x.lowEnd * (2 : ℚ) ^ (x.power - 2) < v
  lt_high : x.significand % 2 = 1 → v < x.highEnd * (2 : ℚ) ^ (x.power - 2)

theorem ofQuotient_of_ne (hn : num ≠ 0) : ofQuotient num den =
    encoded (roundEven (inUnits num den (roundingPower num den)).1
      (inUnits num den (roundingPower num den)).2) (roundingPower num den) := by
  rw [ofQuotient, if_neg hn]
  rfl

/-- What is rounded and encoded for a fraction other than zero. -/
theorem exists_rounding (hn : num ≠ 0) (hd : den ≠ 0) : ∃ (m n d : Nat) (q : Int),
    ofQuotient num den = encoded m q ∧ Encodable m q ∧ 0 < d ∧ m = roundEven n d ∧
      (n / d : ℚ) = (num / den : ℚ) / (2 : ℚ) ^ q ∧
      (num / den : ℚ) < 2 ^ 53 * (2 : ℚ) ^ q ∧ (q ≠ -1074 → 2 ^ 52 * (2 : ℚ) ^ q ≤ num / den) := by
  obtain ⟨hleast, hbelow, habove⟩ := roundingPower_spec hn hd
  have hpos : 0 < (inUnits num den (roundingPower num den)).2 :=
    inUnits_snd_pos (Nat.pos_of_ne_zero hd) _
  have hunits : ((inUnits num den (roundingPower num den)).1 : ℚ) /
      (inUnits num den (roundingPower num den)).2 = num / den / (2 : ℚ) ^ roundingPower num den :=
    inUnits_eq _
  refine ⟨_, _, _, _, ofQuotient_of_ne hn, ?_, hpos, rfl, hunits, hbelow, habove⟩
  have hpow := two_zpow_pos (roundingPower num den)
  refine ⟨hleast, ?_, ?_⟩
  · rw [roundEven_le_iff hpos, hunits]
    left
    rw [div_lt_iff₀ hpow]
    push_cast
    linarith
  · intro hne
    have hge := habove hne
    rw [← not_lt, ← Nat.le_sub_one_iff_lt (by norm_num), roundEven_le_iff hpos, hunits]
    rw [← le_div_iff₀ hpow] at hge
    rintro (hlt | ⟨heq, -⟩) <;> norm_num at * <;> linarith

/-- Exactly the fractions from half a unit above the largest number on become infinite. -/
theorem ofQuotient_isFinite_iff (hd : den ≠ 0) :
    (ofQuotient num den).isFinite = true ↔ (num / den : ℚ) < 2 ^ 1024 - 2 ^ 970 := by
  have hlimit : (2 : ℚ) ^ 1024 - 2 ^ 970 = (2 ^ 54 - 1) * (2 : ℚ) ^ (970 : Int) := by
    rw [sub_mul, one_mul]
    exact congrArg (· - _) (pow_add 2 54 970)
  have hdouble : (2 : ℚ) ^ (971 : Int) = 2 * (2 : ℚ) ^ (970 : Int) := two_zpow_add 1 970
  have hfourfold : (2 : ℚ) ^ (972 : Int) = 4 * (2 : ℚ) ^ (970 : Int) := by
    rw [show (972 : Int) = 2 + 970 by norm_num, two_zpow_add]
    norm_num
  have hunit := two_zpow_pos 970
  rw [hlimit]
  rcases eq_or_ne num 0 with rfl | hn
  · refine iff_of_true (by rw [ofQuotient, if_pos rfl]; rfl) ?_
    rw [Nat.cast_zero, zero_div]
    generalize (2 : ℚ) ^ (970 : Int) = unit at hunit
    linarith
  obtain ⟨m, n, d, q, hx, hencodable, hpos, rfl, hunits, hbelow, habove⟩ := exists_rounding hn hd
  rw [hx, hencodable.isFinite_iff]
  rcases lt_trichotomy q 971 with hq | rfl | hq
  · have hle : (2 : ℚ) ^ q ≤ (2 : ℚ) ^ (970 : Int) := two_zpow_le (by omega)
    refine iff_of_true (.inl hq) ?_
    generalize (2 : ℚ) ^ (970 : Int) = unit at hle hunit
    linarith
  · have hround : roundEven n d < 2 ^ 53 ↔ (n / d : ℚ) < 2 ^ 53 - 1 / 2 := by
      rw [← Nat.le_sub_one_iff_lt (by norm_num), roundEven_le_iff hpos]
      norm_num
    have hscale : (2 ^ 54 - 1) * (2 : ℚ) ^ (970 : Int) = (2 ^ 53 - 1 / 2) * (2 : ℚ) ^ (971 : Int) := by
      rw [hdouble]
      ring
    rw [hscale, ← div_lt_iff₀ (two_zpow_pos 971), ← hunits, ← hround]
    omega
  · have hle : (2 : ℚ) ^ (972 : Int) ≤ (2 : ℚ) ^ q := two_zpow_le (by omega)
    have hge := habove (by omega)
    refine iff_of_false (by omega) (not_lt.2 ?_)
    rw [hfourfold] at hle
    generalize (2 : ℚ) ^ (970 : Int) = unit at hle hunit
    linarith

theorem quarters_eq (x : Double) : x.quarters * (2 : ℚ) ^ (x.power - 2) = x.magnitude := by
  rw [quarters, magnitude, zpow_sub₀ two_ne_zero]
  push_cast
  ring

/-- Two ends that are left out where the significand is odd. -/
theorem Covers.of_ends {x : Double} {v : ℚ}
    (hlow : x.lowEnd * (2 : ℚ) ^ (x.power - 2) < v ∨
      x.lowEnd * (2 : ℚ) ^ (x.power - 2) = v ∧ x.significand % 2 = 0)
    (hhigh : v < x.highEnd * (2 : ℚ) ^ (x.power - 2) ∨
      v = x.highEnd * (2 : ℚ) ^ (x.power - 2) ∧ x.significand % 2 = 0) : x.Covers v where
  low := hlow.elim le_of_lt fun h => h.1.le
  high := hhigh.elim le_of_lt fun h => h.1.le
  low_lt hodd := hlow.resolve_right fun h => by omega
  lt_high hodd := hhigh.resolve_right fun h => by omega

theorem covers_zero : (⟨0⟩ : Double).Covers 0 := by
  have hlow : (⟨0⟩ : Double).lowEnd = 0 := by decide
  have heven : (⟨0⟩ : Double).significand % 2 = 0 := by decide
  have hhigh : (⟨0⟩ : Double).highEnd = 2 := by decide
  refine .of_ends (.inr ⟨by rw [hlow, Nat.cast_zero, zero_mul], heven⟩) (.inl ?_)
  rw [hhigh]
  positivity

/-- `m` is nearest to `w`, and even if it is as near as another. -/
structure Rounds (m : Nat) (w : ℚ) : Prop where
  down : m ≠ 0 → m - 1 / 2 < w ∨ m - 1 / 2 = w ∧ m % 2 = 0
  up : w < m + 1 / 2 ∨ w = m + 1 / 2 ∧ m % 2 = 0

theorem roundEven_rounds {n d : Nat} (hd : 0 < d) : Rounds (roundEven n d) (n / d) := by
  refine ⟨fun hne => ?_, (roundEven_le_iff hd _).1 le_rfl⟩
  obtain ⟨k, hk⟩ := Nat.exists_eq_succ_of_ne_zero hne
  have hlt := (lt_roundEven_iff (n := n) hd k).1 (by omega)
  rw [hk]
  push_cast
  rcases hlt with h | ⟨h, hodd⟩
  · left
    linarith
  · right
    exact ⟨by linarith, by omega⟩

namespace Encodable

variable {w : ℚ}

/-- The significand is the rounded integer. -/
theorem covers_of_lt (h : Encodable m q) (hlt : m < 2 ^ 53) (hfinite : (encoded m q).isFinite = true)
    (hw : 0 ≤ w) (hround : Rounds m w) (habove : q ≠ -1074 → 2 ^ 52 ≤ w) :
    (encoded m q).Covers (w * (2 : ℚ) ^ q) := by
  obtain ⟨hsignificand, hpower, hends⟩ := h.fields_of_lt hlt hfinite
  have hunit := two_zpow_pos (q - 2)
  have hscale : w * (2 : ℚ) ^ q = 4 * w * (2 : ℚ) ^ (q - 2) := by
    rw [zpow_sub₀ two_ne_zero]
    ring
  rw [hscale]
  refine .of_ends ?_ ?_
  · rw [hpower, mul_lt_mul_iff_left₀ hunit, mul_left_inj' hunit.ne', lowEnd, quarters, hsignificand]
    by_cases hpowerOfTwo : (encoded m q).fraction = 0 ∧ 1 < (encoded m q).biasedExponent
    · obtain ⟨rfl, hq⟩ := hends hpowerOfTwo
      have hge := habove hq
      rw [if_pos hpowerOfTwo]
      left
      norm_num
      linarith
    · rw [if_neg hpowerOfTwo]
      rcases eq_or_ne m 0 with rfl | hne
      · rcases hw.eq_or_lt with rfl | hw
        · right
          simp
        · left
          push_cast
          linarith
      · have hcast : ((4 * m - 2 : ℕ) : ℚ) = 4 * m - 2 := by
          push_cast [show 2 ≤ 4 * m by omega]
          ring
        rw [hcast]
        rcases hround.down hne with h | ⟨h, heven⟩
        · left
          linarith
        · right
          exact ⟨by linarith, heven⟩
  · rw [hpower, mul_lt_mul_iff_left₀ hunit, mul_left_inj' hunit.ne', highEnd, quarters, hsignificand]
    push_cast
    rcases hround.up with h | ⟨h, heven⟩
    · left
      linarith
    · right
      exact ⟨by linarith, heven⟩

/-- The rounded integer has a digit too many, so that the next power is taken. -/
theorem covers_of_eq (h : Encodable (2 ^ 53) q) (hfinite : (encoded (2 ^ 53) q).isFinite = true)
    (hround : Rounds (2 ^ 53) w) (hbelow : w < 2 ^ 53) :
    (encoded (2 ^ 53) q).Covers (w * (2 : ℚ) ^ q) := by
  obtain ⟨hsignificand, hpower, hfraction, hbiased⟩ := h.fields_of_eq hfinite
  have hunit := two_zpow_pos (q + 1 - 2)
  have hscale : w * (2 : ℚ) ^ q = 2 * w * (2 : ℚ) ^ (q + 1 - 2) := by
    rw [zpow_sub₀ two_ne_zero, zpow_add_one₀ two_ne_zero]
    ring
  rw [hscale]
  refine .of_ends ?_ (.inl ?_)
  · rw [hpower, mul_lt_mul_iff_left₀ hunit, mul_left_inj' hunit.ne', lowEnd, if_pos ⟨hfraction, hbiased⟩,
      quarters, hsignificand]
    have hdown := hround.down (by norm_num)
    norm_num at hdown ⊢
    rcases hdown with h | h
    · left
      linarith
    · right
      linarith
  · rw [hpower, mul_lt_mul_iff_left₀ hunit, highEnd, quarters, hsignificand]
    norm_num
    linarith

end Encodable

/-- What is rounded lies in the interval of the number that it is rounded to. -/
theorem ofQuotient_covers (hd : den ≠ 0) (hfinite : (ofQuotient num den).isFinite = true) :
    (ofQuotient num den).Covers (num / den) := by
  rcases eq_or_ne num 0 with rfl | hn
  · rw [ofQuotient, if_pos rfl, Nat.cast_zero, zero_div]
    exact covers_zero
  obtain ⟨m, n, d, q, hx, hencodable, hpos, hm, hunits, hbelow, habove⟩ := exists_rounding hn hd
  have hunit := two_zpow_pos q
  have hround : Rounds m (n / d) := hm ▸ roundEven_rounds hpos
  have hv : (num / den : ℚ) = n / d * (2 : ℚ) ^ q := ((eq_div_iff hunit.ne').1 hunits).symm
  rw [hv] at hbelow habove ⊢
  rw [hx] at hfinite ⊢
  rw [mul_lt_mul_iff_left₀ hunit] at hbelow
  rw [mul_le_mul_iff_left₀ hunit] at habove
  rcases Nat.lt_or_ge m (2 ^ 53) with hlt | hge
  · exact hencodable.covers_of_lt hlt hfinite (by positivity) hround habove
  · obtain rfl : m = 2 ^ 53 := Nat.le_antisymm hencodable.digits hge
    exact hencodable.covers_of_eq hfinite hround hbelow

theorem ofQuotient_isNegative (num den : Nat) : (ofQuotient num den).isNegative = false := by
  rcases eq_or_ne num 0 with rfl | hn
  · rw [ofQuotient, if_pos rfl]
    decide
  · rw [ofQuotient_of_ne hn]
    exact encoded_isNegative _ _

/-! ### Operations -/

theorem isZero_iff (x : Double) : x.isZero = true ↔ x.magnitude = 0 := by
  have hpow := two_zpow_pos x.power
  rw [isZero, magnitude, mul_eq_zero, or_iff_left hpow.ne', Nat.cast_eq_zero, significand,
    Bool.and_eq_true, beq_iff_eq, beq_iff_eq]
  split <;> simp_all [Nat.pow_eq]

section

variable {x y : Double}

theorem times_eq (x y : Double) : ((x.quotient.1 * y.quotient.1 : ℕ) : ℚ) /
    ((x.quotient.2 * y.quotient.2 : ℕ) : ℚ) = x.magnitude * y.magnitude := by
  rw [Nat.cast_mul, Nat.cast_mul, mul_div_mul_comm, quotient_eq, quotient_eq]

theorem times_isFinite_iff (x y : Double) : (x.times y).isFinite = true ↔
    x.magnitude * y.magnitude < 2 ^ 1024 - 2 ^ 970 := by
  have hden := Nat.mul_pos x.quotient_snd_pos y.quotient_snd_pos
  rw [times, ofQuotient_isFinite_iff hden.ne', times_eq]

theorem times_covers (hfinite : (x.times y).isFinite = true) :
    (x.times y).Covers (x.magnitude * y.magnitude) := by
  have hden := Nat.mul_pos x.quotient_snd_pos y.quotient_snd_pos
  rw [← times_eq]
  exact ofQuotient_covers hden.ne' hfinite

theorem quotient_fst_ne_zero (hy : y.magnitude ≠ 0) : y.quotient.1 ≠ 0 := by
  intro hzero
  rw [← quotient_eq, hzero, Nat.cast_zero, zero_div] at hy
  exact hy rfl

theorem dividedBy_eq (x y : Double) : ((x.quotient.1 * y.quotient.2 : ℕ) : ℚ) /
    ((x.quotient.2 * y.quotient.1 : ℕ) : ℚ) = x.magnitude / y.magnitude := by
  rw [← quotient_eq, ← quotient_eq, div_div_div_eq, Nat.cast_mul, Nat.cast_mul]

theorem dividedBy_isFinite_iff (hy : y.magnitude ≠ 0) : (x.dividedBy y).isFinite = true ↔
    x.magnitude / y.magnitude < 2 ^ 1024 - 2 ^ 970 := by
  have hden := Nat.mul_ne_zero x.quotient_snd_pos.ne' (quotient_fst_ne_zero hy)
  rw [dividedBy, ofQuotient_isFinite_iff hden, dividedBy_eq]

theorem dividedBy_covers (hy : y.magnitude ≠ 0) (hfinite : (x.dividedBy y).isFinite = true) :
    (x.dividedBy y).Covers (x.magnitude / y.magnitude) := by
  have hden := Nat.mul_ne_zero x.quotient_snd_pos.ne' (quotient_fst_ne_zero hy)
  rw [← dividedBy_eq]
  exact ofQuotient_covers hden hfinite

theorem dividedBy_isNegative (x y : Double) : (x.dividedBy y).isNegative = false :=
  ofQuotient_isNegative _ _

theorem times_isNegative (x y : Double) : (x.times y).isNegative = false :=
  ofQuotient_isNegative _ _

theorem ofNat_isFinite_iff (n : Nat) :
    (ofNat n).isFinite = true ↔ (n : ℚ) < 2 ^ 1024 - 2 ^ 970 := by
  rw [ofNat, ofQuotient_isFinite_iff Nat.one_ne_zero, Nat.cast_one, div_one]

theorem ofNat_covers {n : Nat} (hfinite : (ofNat n).isFinite = true) : (ofNat n).Covers n := by
  have hcovers := ofQuotient_covers Nat.one_ne_zero hfinite
  rwa [Nat.cast_one, div_one] at hcovers

/-- An integer of 53 binary digits and zeros behind them is a number itself. -/
theorem ofNat_magnitude {s j : Nat} (hs : s < 2 ^ 53)
    (hfinite : (ofNat (s * 2 ^ j)).isFinite = true) : (ofNat (s * 2 ^ j)).magnitude = s * 2 ^ j := by
  rcases eq_or_ne (s * 2 ^ j) 0 with hzero | hne
  · have hcast : (s * 2 ^ j : ℚ) = 0 := by exact_mod_cast hzero
    rw [hzero, hcast]
    exact (isZero_iff _).1 rfl
  obtain ⟨m, n, d, q, hx, hencodable, hpos, hm, hunits, -, habove⟩ := exists_rounding hne Nat.one_ne_zero
  rw [Nat.cast_one, div_one, Nat.cast_mul, Nat.cast_pow, Nat.cast_ofNat] at hunits habove
  have hpow := two_zpow_pos q
  have hq : q ≤ j := by
    by_contra hlt
    have hle := habove (by omega)
    have hstep : 2 * (2 : ℚ) ^ j ≤ (2 : ℚ) ^ q := by
      rw [← zpow_natCast, ← zpow_one_add₀ two_ne_zero]
      exact two_zpow_le (by omega)
    have hs' : (s : ℚ) < 2 ^ 53 := by exact_mod_cast hs
    have hmul := mul_lt_mul_of_pos_right hs' (pow_pos two_pos j : (0 : ℚ) < 2 ^ j)
    linarith
  obtain ⟨k, hk⟩ : ∃ k : ℕ, (j : Int) = k + q := ⟨(j - q).toNat, by omega⟩
  have hvalue : (s * 2 ^ j : ℚ) = (s * 2 ^ k : ℕ) * (2 : ℚ) ^ q := by
    rw [← zpow_natCast, hk, two_zpow_add, zpow_natCast]
    push_cast
    ring
  rw [hvalue, mul_div_cancel_right₀ _ hpow.ne'] at hunits
  have hexact : m = s * 2 ^ k := by
    have hnear := roundEven_near (n := n) hpos
    rw [← hm, hunits, abs_le] at hnear
    have hle : (m : ℚ) < (s * 2 ^ k : ℕ) + 1 := by linarith [hnear.2]
    have hge : ((s * 2 ^ k : ℕ) : ℚ) < m + 1 := by linarith [hnear.1]
    exact Nat.le_antisymm (Nat.le_of_lt_succ (by exact_mod_cast hle))
      (Nat.le_of_lt_succ (by exact_mod_cast hge))
  rw [ofNat, hx] at hfinite ⊢
  rw [hencodable.magnitude_eq hfinite, hexact, hvalue]

end

/-! ### The sign -/

theorem negate_toNat (x : Double) : x.negate.bits.toNat = x.bits.toNat ^^^ 2 ^ 63 :=
  UInt64.toNat_xor x.bits _

/-- The sign is above all other bits. -/
theorem negate_mod (x : Double) : x.negate.bits.toNat % 2 ^ 63 = x.bits.toNat % 2 ^ 63 := by
  rw [negate_toNat, Nat.xor_mod_two_pow, Nat.mod_self, Nat.xor_zero]

theorem negate_fraction (x : Double) : x.negate.fraction = x.fraction := by
  have hmod := x.negate_mod
  rw [fraction, fraction, Nat.pow_eq]
  omega

theorem negate_biasedExponent (x : Double) : x.negate.biasedExponent = x.biasedExponent := by
  have hmod := x.negate_mod
  rw [biasedExponent, biasedExponent, Nat.pow_eq, Nat.pow_eq]
  omega

theorem negate_isFinite (x : Double) : x.negate.isFinite = x.isFinite := by
  rw [isFinite, isFinite, negate_biasedExponent]

theorem negate_isNegative (x : Double) : x.negate.isNegative = !x.isNegative := by
  have hdiv : x.negate.bits.toNat / 2 ^ 63 = x.bits.toNat / 2 ^ 63 ^^^ 1 := by
    rw [negate_toNat, Nat.xor_div_two_pow, Nat.div_self (Nat.two_pow_pos 63)]
  have hsign (y : Double) : y.isNegative = decide (1 ≤ y.bits.toNat / 2 ^ 63) := by
    rw [isNegative, Nat.pow_eq, decide_eq_decide, Nat.le_div_iff_mul_le (Nat.two_pow_pos 63),
      Nat.one_mul]
  have hlt := x.bits.toNat_lt
  have hcases : x.bits.toNat / 2 ^ 63 = 0 ∨ x.bits.toNat / 2 ^ 63 = 1 := by omega
  rw [hsign, hsign, hdiv]
  rcases hcases with h | h <;> rw [h] <;> rfl

theorem negate_significand (x : Double) : x.negate.significand = x.significand := by
  rw [significand, significand, negate_biasedExponent, negate_fraction]

theorem negate_power (x : Double) : x.negate.power = x.power := by
  rw [power, power, negate_biasedExponent]

theorem negate_magnitude (x : Double) : x.negate.magnitude = x.magnitude := by
  rw [magnitude, magnitude, negate_significand, negate_power]

/-- The interval of a number does not depend on its sign. -/
theorem Covers.negate {x : Double} {v : ℚ} (h : x.Covers v) : x.negate.Covers v := by
  have hquarters : x.negate.quarters = x.quarters := by
    rw [quarters, quarters, negate_significand]
  have hlow : x.negate.lowEnd = x.lowEnd := by
    rw [lowEnd, lowEnd, hquarters, negate_fraction, negate_biasedExponent]
  have hhigh : x.negate.highEnd = x.highEnd := by
    rw [highEnd, highEnd, hquarters]
  obtain ⟨hge, hle, hgt, hlt⟩ := h
  refine ⟨?_, ?_, ?_, ?_⟩ <;> rw [negate_power]
  · rwa [hlow]
  · rwa [hhigh]
  · rwa [hlow, negate_significand]
  · rwa [hhigh, negate_significand]

end Double

end TypedSql
