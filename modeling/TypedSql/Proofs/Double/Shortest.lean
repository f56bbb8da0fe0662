import TypedSql.Proofs.Double.Near

/-! The shortest decimal of a number lies in its rounding interval, and no coarser grid has a point there.
Fifteen digits are the only ones of their grid in an interval, so they are printed again. -/

namespace TypedSql

/-- The value of a decimal. -/
def Decimal.value (d : Decimal) : ℚ :=
  d.digits * (10 : ℚ) ^ d.exponent

namespace Double

/-! ### The rounding interval -/

section

variable {x : Double} {u v w : ℚ}

theorem Covers.convex (hu : x.Covers u) (hw : x.Covers w) (huv : u ≤ v) (hvw : v ≤ w) : x.Covers v where
  low := hu.low.trans huv
  high := hvw.trans hw.high
  low_lt hodd := (hu.low_lt hodd).trans_le huv
  lt_high hodd := hvw.trans_lt (hw.lt_high hodd)

/-- A number lies in its own interval. -/
theorem covers_magnitude (x : Double) : x.Covers x.magnitude := by
  have hunit := two_zpow_pos (x.power - 2)
  have hhigh : (x.quarters : ℚ) < x.highEnd := by
    rw [highEnd]
    push_cast
    linarith
  rw [← x.quarters_eq]
  refine .of_ends ?_ (.inl (mul_lt_mul_of_pos_right hhigh hunit))
  rcases Nat.eq_zero_or_pos x.significand with hzero | hpos
  · have hlow : x.lowEnd = x.quarters := by
      rw [lowEnd, quarters, hzero]
      split <;> rfl
    rw [hlow, hzero]
    exact .inr ⟨rfl, rfl⟩
  · have hlow : x.lowEnd < x.quarters := by
      rw [lowEnd, quarters]
      split <;> omega
    exact .inl (mul_lt_mul_of_pos_right (by exact_mod_cast hlow) hunit)

/-- Zero lies in the interval of no other number. -/
theorem Covers.isZero (h : x.Covers 0) : x.isZero = true := by
  have hunit := two_zpow_pos (x.power - 2)
  have hlow := h.low
  have hend : x.lowEnd = 0 := by
    by_contra hne
    have hpos : (0 : ℚ) < x.lowEnd := by exact_mod_cast Nat.pos_of_ne_zero hne
    exact absurd hlow (not_le.2 (mul_pos hpos hunit))
  have hsignificand : x.significand = 0 := by
    rw [lowEnd, quarters] at hend
    split at hend <;> omega
  rw [isZero_iff, magnitude, hsignificand, Nat.cast_zero, zero_mul]

/-- An interval is not wider than the unit of the significand. -/
theorem Covers.sub_le (hv : x.Covers v) (hw : x.Covers w) : v - w ≤ (2 : ℚ) ^ x.power := by
  have hhigh := hv.high
  have hlow := hw.low
  have hunit := two_zpow_pos (x.power - 2)
  have hpower : (2 : ℚ) ^ x.power = 4 * (2 : ℚ) ^ (x.power - 2) := by
    rw [zpow_sub₀ two_ne_zero]
    ring
  have hends : (x.highEnd : ℚ) ≤ x.lowEnd + 4 := by
    have hnat : x.highEnd ≤ x.lowEnd + 4 := by
      rw [highEnd, lowEnd]
      split <;> omega
    exact_mod_cast hnat
  have hmul := mul_le_mul_of_nonneg_right hends hunit.le
  rw [hpower]
  linarith

end

/-! ### Grids of decimals -/

theorem zpow_mul_toNat {b : ℚ} (hb : b ≠ 0) (k : Int) : b ^ k * b ^ (-k).toNat = b ^ k.toNat := by
  rw [← zpow_natCast, ← zpow_natCast, ← zpow_add₀ hb]
  congr 1
  omega

variable (x : Double) (u : Int)

/-- The factors are those of quarters and of grid steps, in one common unit. -/
theorem gridFactors_spec : ∃ unit : ℚ, 0 < unit ∧
    ((x.gridFactors u).1 : ℚ) = (2 : ℚ) ^ (x.power - 2) * unit ∧
    ((x.gridFactors u).2 : ℚ) = (10 : ℚ) ^ u * unit := by
  refine ⟨2 ^ (-(x.power - 2)).toNat * 10 ^ (-u).toNat, by positivity, ?_, ?_⟩
  · have htwo := zpow_mul_toNat two_ne_zero (x.power - 2)
    rw [← mul_assoc, htwo]
    simp only [gridFactors, Nat.pow_eq, Nat.cast_mul, Nat.cast_pow, Nat.cast_ofNat]
  · have hten := zpow_mul_toNat (by norm_num : (10 : ℚ) ≠ 0) u
    rw [mul_left_comm, hten]
    simp only [gridFactors, Nat.pow_eq, Nat.cast_mul, Nat.cast_pow, Nat.cast_ofNat]

/-- A comparison of quarters with grid steps. -/
theorem quarters_le_iff (k d : Nat) : (k * (x.gridFactors u).1 ≤ d * (x.gridFactors u).2 ↔
      k * (2 : ℚ) ^ (x.power - 2) ≤ d * (10 : ℚ) ^ u) ∧
    (d * (x.gridFactors u).2 ≤ k * (x.gridFactors u).1 ↔
      d * (10 : ℚ) ^ u ≤ k * (2 : ℚ) ^ (x.power - 2)) := by
  obtain ⟨unit, hunit, hquarters, hsteps⟩ := x.gridFactors_spec u
  have hk : ((k * (x.gridFactors u).1 : ℕ) : ℚ) = k * (2 : ℚ) ^ (x.power - 2) * unit := by
    rw [Nat.cast_mul, hquarters, mul_assoc]
  have hd : ((d * (x.gridFactors u).2 : ℕ) : ℚ) = d * (10 : ℚ) ^ u * unit := by
    rw [Nat.cast_mul, hsteps, mul_assoc]
  have hcast (m n : ℕ) : m ≤ n ↔ (m : ℚ) ≤ n := Nat.cast_le.symm
  rw [hcast, hcast, hk, hd]
  exact ⟨mul_le_mul_iff_left₀ hunit, mul_le_mul_iff_left₀ hunit⟩

theorem reads_iff (d : Nat) : x.reads u d = true ↔ x.Covers (d * (10 : ℚ) ^ u) := by
  have hlow := x.quarters_le_iff u x.lowEnd d
  have hhigh := x.quarters_le_iff u x.highEnd d
  rw [reads]
  dsimp only
  by_cases heven : x.significand % 2 = 0
  · rw [if_pos heven, Bool.and_eq_true, decide_eq_true_eq, decide_eq_true_eq, hlow.1, hhigh.2]
    constructor
    · rintro ⟨hge, hle⟩
      exact ⟨hge, hle, fun hodd => by omega, fun hodd => by omega⟩
    · exact fun h => ⟨h.low, h.high⟩
  · rw [if_neg heven, Bool.and_eq_true, decide_eq_true_eq, decide_eq_true_eq, ← not_le, ← not_le,
      hlow.2, hhigh.1, not_le, not_le]
    constructor
    · exact fun ⟨hlt, hgt⟩ => ⟨hlt.le, hgt.le, fun _ => hlt, fun _ => hgt⟩
    · exact fun h => ⟨h.low_lt (by omega), h.lt_high (by omega)⟩

/-- The grid point below a number, or the number itself. -/
def gridFloor : Nat :=
  x.quarters * (x.gridFactors u).1 / (x.gridFactors u).2

theorem gridFloor_le : x.gridFloor u * (10 : ℚ) ^ u ≤ x.magnitude := by
  rw [← x.quarters_eq, ← (x.quarters_le_iff u _ _).2]
  exact Nat.div_mul_le_self _ _

theorem lt_gridFloor : x.magnitude < (x.gridFloor u + 1 : ℕ) * (10 : ℚ) ^ u := by
  obtain ⟨unit, hunit, -, hsteps⟩ := x.gridFactors_spec u
  have hpos : 0 < (x.gridFactors u).2 := by
    have hcast : (0 : ℚ) < (x.gridFactors u).2 := by
      rw [hsteps]
      positivity
    exact_mod_cast hcast
  rw [← x.quarters_eq, ← not_le, ← (x.quarters_le_iff u _ _).2, not_le]
  exact Nat.lt_mul_of_div_lt (Nat.lt_succ_self _) hpos

variable {x u}

theorem gridPoint?_covers {tie : Tie} {d : Nat} (h : x.gridPoint? tie u = some d) :
    x.Covers (d * (10 : ℚ) ^ u) := by
  rw [← reads_iff]
  rw [gridPoint?] at h
  dsimp only at h
  split at h
  · cases h
  · cases h
    assumption
  · cases h
    assumption
  · split at h
    · cases h
      assumption
    · split at h
      · cases h
        assumption
      · split at h
        · cases h
          assumption
        · split at h <;> cases h <;> assumption

/-- If some grid point lies in the interval, then so does a neighbour of the number. -/
theorem exists_gridPoint (tie : Tie) {d : Nat} (h : x.Covers (d * (10 : ℚ) ^ u)) :
    ∃ d', x.gridPoint? tie u = some d' := by
  have hstep : (0 : ℚ) < (10 : ℚ) ^ u := zpow_pos (by norm_num) u
  have hneighbour : x.reads u (x.gridFloor u) = true ∨ x.reads u (x.gridFloor u + 1) = true := by
    rw [reads_iff, reads_iff]
    rcases Nat.lt_or_ge (x.gridFloor u) d with hlt | hge
    · right
      have hle : ((x.gridFloor u + 1 : ℕ) : ℚ) ≤ d := by exact_mod_cast hlt
      exact x.covers_magnitude.convex h (x.lt_gridFloor u).le (mul_le_mul_of_nonneg_right hle hstep.le)
    · left
      have hle : (d : ℚ) ≤ x.gridFloor u := by exact_mod_cast hge
      exact h.convex x.covers_magnitude (mul_le_mul_of_nonneg_right hle hstep.le) (x.gridFloor_le u)
  rw [← Option.isSome_iff_exists, ← Option.not_isNone, Bool.not_eq_true', ← Bool.not_eq_true,
    Option.isNone_iff_eq_none]
  intro hnone
  rw [gridPoint?] at hnone
  dsimp only at hnone
  rw [gridFloor] at hneighbour
  split at hnone
  · simp_all
  · cases hnone
  · cases hnone
  · split at hnone
    · cases hnone
    · split at hnone
      · cases hnone
      · split at hnone <;> cases hnone

/-! ### The coarsest grid -/

theorem mem_gridExponents {u : Int} : u ∈ gridExponents ↔ -1074 ≤ u ∧ u ≤ 309 := by
  rw [gridExponents, List.mem_map]
  constructor
  · rintro ⟨i, hi, rfl⟩
    rw [List.mem_range] at hi
    omega
  · rintro ⟨hlow, hhigh⟩
    exact ⟨(309 - u).toNat, List.mem_range.2 (by omega), by omega⟩

theorem gridExponents_pairwise : gridExponents.Pairwise (· > ·) := by
  rw [gridExponents, List.pairwise_map]
  exact List.pairwise_lt_range.imp fun h => by omega

/-- Every number is a point of the finest grid. -/
theorem exists_finest (x : Double) : ∃ d : ℕ, (d * (10 : ℚ) ^ (-1074 : Int)) = x.magnitude := by
  have hleast := x.least_power_le
  obtain ⟨k, hk⟩ : ∃ k : ℕ, x.power = k + -1074 := ⟨(x.power + 1074).toNat, by omega⟩
  have hten (p : ℕ) : (5 ^ p : ℚ) * (10 : ℚ) ^ (-p : Int) = (2 : ℚ) ^ (-p : Int) := by
    rw [zpow_neg, zpow_neg, zpow_natCast, zpow_natCast, ← div_eq_mul_inv,
      div_eq_iff (by positivity), inv_mul_eq_div, eq_div_iff (by positivity), ← mul_pow]
    norm_num
  -- The exponent is named, so that its power is not computed.
  obtain ⟨p, hp⟩ : ∃ p : ℕ, (-1074 : Int) = -p := ⟨1074, rfl⟩
  refine ⟨x.significand * 2 ^ k * 5 ^ p, ?_⟩
  rw [magnitude, hk, hp, two_zpow_add, zpow_natCast, ← hten p]
  push_cast
  ring

variable {x : Double} {tie : Tie}

/-- The shortest decimal is a grid point of its number, and coarser grids have none. -/
theorem shortest_spec (hx : ¬ x.isZero = true) :
    x.gridPoint? tie (x.shortest tie).exponent = some (x.shortest tie).digits ∧
      ∀ u, (x.shortest tie).exponent < u → u ≤ 309 → x.gridPoint? tie u = none := by
  obtain ⟨d, hd⟩ := x.exists_finest
  obtain ⟨point, hpoint⟩ := exists_gridPoint tie (hd ▸ x.covers_magnitude)
  cases hfind : gridExponents.findSome? fun u => (x.gridPoint? tie u).map (Decimal.mk · u) with
  | none =>
      rw [List.findSome?_eq_none_iff] at hfind
      have hnone := hfind (-1074) (mem_gridExponents.2 ⟨le_rfl, by norm_num⟩)
      rw [hpoint] at hnone
      cases hnone
  | some best =>
      have hshortest : x.shortest tie = best := by
        rw [shortest, if_neg hx, hfind, Option.getD_some]
      rw [hshortest]
      rw [List.findSome?_eq_some_iff] at hfind
      obtain ⟨coarser, u, finer, hsplit, hbest, hnone⟩ := hfind
      rw [Option.map_eq_some_iff] at hbest
      obtain ⟨digits, hdigits, rfl⟩ := hbest
      refine ⟨hdigits, fun u' hlt hle => ?_⟩
      have hpairwise := gridExponents_pairwise
      have hlow : -1074 ≤ u := (mem_gridExponents.1 (hsplit ▸ by simp)).1
      have hmem : u' ∈ gridExponents := mem_gridExponents.2 ⟨hlow.trans hlt.le, hle⟩
      rw [hsplit, List.pairwise_append, List.pairwise_cons] at hpairwise
      rw [hsplit, List.mem_append, List.mem_cons] at hmem
      have hcoarser : u' ∈ coarser := by
        rcases hmem with hmem | rfl | hmem
        · exact hmem
        · exact absurd hlt (lt_irrefl _)
        · exact absurd (hpairwise.2.1.1 u' hmem) (not_lt.2 hlt.le)
      exact Option.map_eq_none_iff.1 (hnone u' hcoarser)

/-- The shortest decimal reads back. -/
theorem shortest_covers (x : Double) (tie : Tie) : x.Covers (x.shortest tie).value := by
  by_cases hx : x.isZero = true
  · have hmagnitude := x.covers_magnitude
    rw [(isZero_iff x).1 hx] at hmagnitude
    rw [shortest, if_pos hx, Decimal.value, Nat.cast_zero, zero_mul]
    exact hmagnitude
  · exact gridPoint?_covers (shortest_spec hx).1

theorem shortest_digits_ne_zero (hx : ¬ x.isZero = true) : (x.shortest tie).digits ≠ 0 := by
  intro hzero
  have hcovers := x.shortest_covers tie
  rw [Decimal.value, hzero, Nat.cast_zero, zero_mul] at hcovers
  exact hx hcovers.isZero

/-! ### Fifteen digits -/

/-- Of the decimals of a grid, no two are so near to each other as the ends of an interval, if one of them
has at most fifteen digits. -/
theorem eq_of_covers {s a : Nat} {k : Int} (hs : s < 10 ^ 15) (hk : -22 ≤ k)
    (h : x.Covers (s * (10 : ℚ) ^ k)) (ha : x.Covers (a * (10 : ℚ) ^ k)) : a = s := by
  have hstep : (0 : ℚ) < (10 : ℚ) ^ k := zpow_pos (by norm_num) k
  have hwidth : (2 : ℚ) ^ x.power < (10 : ℚ) ^ k := by
    rcases x.power_eq_or_le_significand with hpower | hdigits
    · calc (2 : ℚ) ^ x.power ≤ (2 : ℚ) ^ (-88 : Int) := two_zpow_le (by omega)
        _ < (10 : ℚ) ^ (-22 : Int) := by norm_num
        _ ≤ (10 : ℚ) ^ k := zpow_le_zpow_right₀ (by norm_num) hk
    · have hlow := h.low
      have hunit := two_zpow_pos (x.power - 2)
      have hpower : (2 : ℚ) ^ x.power = 4 * (2 : ℚ) ^ (x.power - 2) := by
        rw [zpow_sub₀ two_ne_zero]
        ring
      have hend : (2 ^ 54 - 2 : ℚ) ≤ x.lowEnd := by
        have hnat : 2 ^ 54 ≤ x.lowEnd + 2 := by
          rw [lowEnd, quarters]
          split <;> omega
        have hcast : (2 ^ 54 : ℚ) ≤ x.lowEnd + 2 := by exact_mod_cast hnat
        linarith
      have hs' : (s : ℚ) ≤ 10 ^ 15 := by exact_mod_cast hs.le
      have hmul := mul_le_mul_of_nonneg_right hend hunit.le
      have hmul' := mul_le_mul_of_nonneg_right hs' hstep.le
      rw [hpower]
      linarith
  have hbelow := h.sub_le ha
  have habove := ha.sub_le h
  have hle : (a : ℚ) < s + 1 := by
    rw [← mul_lt_mul_iff_left₀ hstep]
    linarith
  have hge : (s : ℚ) < a + 1 := by
    rw [← mul_lt_mul_iff_left₀ hstep]
    linarith
  exact Nat.le_antisymm (Nat.le_of_lt_succ (by exact_mod_cast hle))
    (Nat.le_of_lt_succ (by exact_mod_cast hge))

/-- Fifteen digits whose number has been read are printed again. -/
theorem shortest_value {s : Nat} {k : Int} (hs : s < 10 ^ 15) (hlow : -22 ≤ k) (hhigh : k ≤ 309)
    (h : x.Covers (s * (10 : ℚ) ^ k)) : (x.shortest tie).value = s * (10 : ℚ) ^ k := by
  by_cases hx : x.isZero = true
  · have hzero : x.Covers ((0 : ℕ) * (10 : ℚ) ^ k) := by
      have hmagnitude := x.covers_magnitude
      rwa [(isZero_iff x).1 hx, ← zero_mul ((10 : ℚ) ^ k), ← Nat.cast_zero] at hmagnitude
    rw [← eq_of_covers hs hlow h hzero, shortest, if_pos hx, Decimal.value, Nat.cast_zero, zero_mul,
      zero_mul]
  · have hcovers := x.shortest_covers tie
    have hcoarse : k ≤ (x.shortest tie).exponent := by
      by_contra hlt
      obtain ⟨d, hd⟩ := exists_gridPoint tie h
      rw [(shortest_spec hx).2 k (not_le.1 hlt) hhigh] at hd
      cases hd
    obtain ⟨j, hj⟩ : ∃ j : ℕ, (x.shortest tie).exponent = j + k :=
      ⟨((x.shortest tie).exponent - k).toNat, by omega⟩
    have hvalue : (x.shortest tie).value = ((x.shortest tie).digits * 10 ^ j : ℕ) * (10 : ℚ) ^ k := by
      rw [Decimal.value, hj, zpow_add₀ (by norm_num), zpow_natCast, ← mul_assoc]
      push_cast
      rfl
    rw [hvalue] at hcovers ⊢
    rw [eq_of_covers hs hlow h hcovers]

end Double

end TypedSql
