import TypedSql.Proofs.Json.Grammar
import TypedSql.Proofs.Double.Near

/-! The values of numerals, and what the reader keeps of one. It collects digits as long as they fit 64
bits, and counts the others into a power of ten. -/

namespace TypedSql

namespace Numeral

/-- All digits of a numeral, as one integer. -/
def digits (n : Numeral) : Nat :=
  Nat.ofDigitChars 10 (n.whole ++ n.fraction.getD []) 0

/-- The power of ten of the last digit. -/
def scale (n : Numeral) : Int :=
  exponentValue n.exponent - (n.fraction.getD []).length

/-- The absolute value of a numeral. -/
def size (n : Numeral) : ℚ :=
  n.digits * (10 : ℚ) ^ n.scale

def value (n : Numeral) : ℚ :=
  if n.negative then -n.size else n.size

theorem size_nonneg (n : Numeral) : 0 ≤ n.size := by
  rw [size]
  positivity

theorem abs_value (n : Numeral) : |n.value| = n.size := by
  rw [value]
  split
  · rw [abs_neg, abs_of_nonneg n.size_nonneg]
  · exact abs_of_nonneg n.size_nonneg

theorem natValue_eq (ds : List Char) : natValue ds = Nat.ofDigitChars 10 ds 0 :=
  Nat.ofDigitChars_eq_foldl.symm

/-! ### Digits -/

theorem digitValue_le {c : Char} (h : c.isDigit = true) : digitValue c ≤ 9 := by
  simp only [Char.isDigit, Bool.and_eq_true, decide_eq_true_eq, UInt32.le_iff_toNat_le] at h
  have hnine : '9'.val.toNat = 57 := rfl
  have hzero : '0'.toNat = 48 := rfl
  have hval : c.toNat = c.val.toNat := rfl
  rw [digitValue]
  omega

theorem ofDigitChars_cons (c : Char) (ds : List Char) (init : Nat) :
    Nat.ofDigitChars 10 (c :: ds) init = Nat.ofDigitChars 10 ds (10 * init + digitValue c) :=
  Nat.ofDigitChars_cons

theorem le_ofDigitChars (ds : List Char) (init : Nat) : init ≤ Nat.ofDigitChars 10 ds init := by
  rw [Nat.ofDigitChars_eq_ofDigitChars_zero]
  nlinarith [Nat.one_le_pow ds.length 10 (by norm_num)]

/-- More digits behind some lift their number to the next power, and do not reach the number after it. -/
theorem ofDigitChars_bounds {ds : List Char} (h : ∀ c ∈ ds, c.isDigit = true) (init : Nat) :
    init * 10 ^ ds.length ≤ Nat.ofDigitChars 10 ds init ∧
      Nat.ofDigitChars 10 ds init < (init + 1) * 10 ^ ds.length := by
  induction ds generalizing init with
  | nil => simp [Nat.ofDigitChars_nil]
  | cons c ds ih =>
      rw [List.forall_mem_cons] at h
      have hdigit := digitValue_le h.1
      obtain ⟨hge, hlt⟩ := ih h.2 (10 * init + digitValue c)
      rw [ofDigitChars_cons, List.length_cons, Nat.pow_succ']
      constructor
      · calc init * (10 * 10 ^ ds.length) = 10 * init * 10 ^ ds.length := by ring
          _ ≤ (10 * init + digitValue c) * 10 ^ ds.length := by
              gcongr
              exact Nat.le_add_right _ _
          _ ≤ _ := hge
      · calc Nat.ofDigitChars 10 ds (10 * init + digitValue c)
            < (10 * init + digitValue c + 1) * 10 ^ ds.length := hlt
          _ ≤ (10 * init + 10) * 10 ^ ds.length := Nat.mul_le_mul_right _ (by omega)
          _ = (init + 1) * (10 * 10 ^ ds.length) := by ring

theorem digitChar_digitValue {c : Char} (h : c.isDigit = true) : (digitValue c).digitChar = c := by
  simp only [Char.isDigit, Bool.and_eq_true, decide_eq_true_eq, UInt32.le_iff_toNat_le] at h
  have hlow : 48 ≤ c.toNat := h.1
  have hhigh : c.toNat ≤ 57 := h.2
  have hall : ∀ k < 58, 48 ≤ k → (digitValue (Char.ofNat k)).digitChar = Char.ofNat k := by decide
  have hchar := hall c.toNat (by omega) hlow
  rwa [Char.ofNat_toNat] at hchar

/-- Digits are printed as they stand, behind a number that they lengthen. -/
theorem toDigits_ofDigitChars {ds : List Char} (h : ∀ c ∈ ds, c.isDigit = true) {init : Nat}
    (hinit : 0 < init) :
    Nat.toDigits 10 (Nat.ofDigitChars 10 ds init) = Nat.toDigits 10 init ++ ds := by
  induction ds generalizing init with
  | nil => rw [Nat.ofDigitChars_nil, List.append_nil]
  | cons c ds ih =>
      rw [List.forall_mem_cons] at h
      have hdigit := digitValue_le h.1
      have hlast : Nat.toDigits 10 (digitValue c) = [c] := by
        rw [Nat.toDigits_of_lt_base (by omega), digitChar_digitValue h.1]
      rw [ofDigitChars_cons, ih h.2 (by omega),
        ← Nat.toDigits_append_toDigits (by norm_num) hinit (by omega), hlast, List.append_assoc,
        List.singleton_append]

theorem SpellsWhole.toDigits {ds : List Char} (h : SpellsWhole ds) :
    Nat.toDigits 10 (Nat.ofDigitChars 10 ds 0) = ds := by
  cases h with
  | zero => rfl
  | @digits c ds hc hne hds =>
      have hdigit := digitValue_le hc
      have hpos : 0 < digitValue c := by
        rw [Nat.pos_iff_ne_zero]
        intro hzero
        rw [← digitChar_digitValue hc, hzero] at hne
        exact hne rfl
      have hinit : 10 * 0 + digitValue c = digitValue c := by omega
      rw [ofDigitChars_cons, hinit, toDigits_ofDigitChars hds hpos, Nat.toDigits_of_lt_base (by omega),
        digitChar_digitValue hc, List.singleton_append]

/-! ### Collecting digits -/

/-- What was collected is the number of the digits before the ones that are left. -/
theorem absorb_spec (n : Nat) (ds : List Char) : ∃ taken, ds = taken ++ (absorb n ds).2 ∧
    (absorb n ds).1 = Nat.ofDigitChars 10 taken n := by
  induction ds generalizing n with
  | nil => exact ⟨[], rfl, rfl⟩
  | cons c ds ih =>
      rw [absorb]
      split
      · obtain ⟨taken, hds, hvalue⟩ := ih (10 * n + digitValue c)
        exact ⟨c :: taken, congrArg (c :: ·) hds, hvalue.trans (ofDigitChars_cons c taken n).symm⟩
      · exact ⟨[], rfl, rfl⟩

theorem absorb_lt {n : Nat} (h : n < 2 ^ 64) (ds : List Char) : (absorb n ds).1 < 2 ^ 64 := by
  induction ds generalizing n with
  | nil => exact h
  | cons c ds ih =>
      rw [absorb]
      split
      · rename_i hfits
        exact ih hfits
      · exact h

/-- Where digits are left, the ones before them fill 60 bits. -/
theorem le_absorb {ds : List Char} (h : ∀ c ∈ ds, c.isDigit = true) (n : Nat)
    (hleft : (absorb n ds).2 ≠ []) : 2 ^ 60 ≤ (absorb n ds).1 := by
  induction ds generalizing n with
  | nil => exact absurd rfl hleft
  | cons c ds ih =>
      rw [List.forall_mem_cons] at h
      rw [absorb] at hleft ⊢
      split at hleft
      · rename_i hfits
        rw [if_pos hfits]
        exact ih h.2 _ hleft
      · rename_i hfits
        have hdigit := digitValue_le h.1
        rw [Nat.pow_eq] at hfits
        rw [if_neg (by rw [Nat.pow_eq]; exact hfits)]
        omega

/-- Where the number of all digits fits, none are left. -/
theorem absorb_of_lt {ds : List Char} {n : Nat} (h : Nat.ofDigitChars 10 ds n < 2 ^ 64) :
    absorb n ds = (Nat.ofDigitChars 10 ds n, []) := by
  induction ds generalizing n with
  | nil => rfl
  | cons c ds ih =>
      rw [ofDigitChars_cons] at h ⊢
      have hle := le_ofDigitChars ds (10 * n + digitValue c)
      have hfits : 10 * n + digitValue c < Nat.pow 2 64 := by
        rw [Nat.pow_eq]
        exact hle.trans_lt h
      rw [absorb, if_pos hfits]
      exact ih h

/-! ### What the reader keeps -/

/-- The numeral is made of digits. -/
def Proper (n : Numeral) : Prop :=
  ∀ c ∈ n.whole ++ n.fraction.getD [], c.isDigit = true

theorem Spells.proper {n : Numeral} {cs : List Char} (h : n.Spells cs) : n.Proper := by
  obtain ⟨negative, whole, fraction, exponent⟩ := n
  obtain ⟨f, e, -, hwhole, hfraction, -⟩ := h
  rw [Proper, List.forall_mem_append]
  refine ⟨hwhole.isDigits.2, ?_⟩
  dsimp only at hfraction ⊢
  cases hfraction with
  | absent => exact fun c hc => absurd hc List.not_mem_nil
  | point hds => exact hds.2

theorem scaled_eq (n : Numeral) : n.scaled =
    ((absorb (absorb 0 n.whole).1 (n.fraction.getD [])).1,
      (absorb 0 n.whole).2.length - ((n.fraction.getD []).length
        - (absorb (absorb 0 n.whole).1 (n.fraction.getD [])).2.length : Nat)
        + exponentValue n.exponent) := rfl

/-- Where all digits fit 64 bits, nothing is lost. -/
theorem scaled_of_lt {n : Numeral} (h : n.digits < 2 ^ 64) : n.scaled = (n.digits, n.scale) := by
  have hdigits : n.digits = Nat.ofDigitChars 10 (n.fraction.getD [])
      (Nat.ofDigitChars 10 n.whole 0) := Nat.ofDigitChars_append 0
  have hwhole : Nat.ofDigitChars 10 n.whole 0 ≤ n.digits := hdigits ▸ le_ofDigitChars _ _
  rw [scaled_eq, absorb_of_lt (hwhole.trans_lt h), absorb_of_lt (hdigits ▸ h), ← hdigits, scale]
  simp
  omega

/-- Two numbers with the same leading digits are near to each other. -/
theorem near_of_leading {m : Nat} {unit x v : ℚ} (hm : 2 ^ 60 ≤ m) (hunit : 0 < unit)
    (hx : m * unit ≤ x ∧ x ≤ (m + 1) * unit) (hv : m * unit ≤ v ∧ v ≤ (m + 1) * unit) :
    Near (1 / 2 ^ 60) 0 x v := by
  have hcast : (2 ^ 60 : ℚ) ≤ m := by exact_mod_cast hm
  have hmul := mul_le_mul_of_nonneg_right hcast hunit.le
  have hdiff : |x - v| ≤ unit := by
    rw [abs_le]
    constructor <;> linarith
  rw [Near]
  linarith

/-- The digits behind some others, in the unit of the last one of those. -/
theorem scale_bounds {ds : List Char} (h : ∀ c ∈ ds, c.isDigit = true) (m : Nat) {j k : Int}
    (hjk : ds.length + j = k) :
    m * (10 : ℚ) ^ k ≤ Nat.ofDigitChars 10 ds m * (10 : ℚ) ^ j ∧
      Nat.ofDigitChars 10 ds m * (10 : ℚ) ^ j ≤ (m + 1) * (10 : ℚ) ^ k := by
  obtain ⟨hge, hlt⟩ := ofDigitChars_bounds h m
  have hpow : (0 : ℚ) < (10 : ℚ) ^ j := zpow_pos (by norm_num) j
  have hge' : (m * 10 ^ ds.length : ℚ) ≤ Nat.ofDigitChars 10 ds m := by exact_mod_cast hge
  have hlt' : (Nat.ofDigitChars 10 ds m : ℚ) ≤ (m + 1) * 10 ^ ds.length := by exact_mod_cast hlt.le
  rw [← hjk, zpow_add₀ (by norm_num), zpow_natCast, ← mul_assoc, ← mul_assoc]
  exact ⟨mul_le_mul_of_nonneg_right hge' hpow.le, mul_le_mul_of_nonneg_right hlt' hpow.le⟩

/-- The digits of a fraction that are kept behind others. The first one that does not fit ends them. -/
theorem near_of_absorb {ds : List Char} (h : ∀ c ∈ ds, c.isDigit = true) (kept : Nat) (e : Int) :
    Near (1 / 2 ^ 60) 0
      ((absorb kept ds).1 * (10 : ℚ) ^ (e - (ds.length - (absorb kept ds).2.length : ℕ)))
      (Nat.ofDigitChars 10 ds kept * (10 : ℚ) ^ (e - ds.length)) := by
  obtain ⟨more, hmore, hkept⟩ := absorb_spec kept ds
  have hfull := le_absorb h kept
  generalize (absorb kept ds).1 = kept' at *
  generalize (absorb kept ds).2 = dropped at *
  have hlength : ds.length = more.length + dropped.length := by
    rw [hmore, List.length_append]
  have hrest : Nat.ofDigitChars 10 ds kept = Nat.ofDigitChars 10 dropped kept' := by
    rw [hmore, Nat.ofDigitChars_append, ← hkept]
  have hpos : (0 : ℚ) < (10 : ℚ) ^ (e - (ds.length - dropped.length : ℕ)) := zpow_pos (by norm_num) _
  rw [hrest]
  by_cases hdropped : dropped = []
  · rw [hdropped] at hpos ⊢
    rw [Nat.ofDigitChars_nil, List.length_nil, Nat.sub_zero] at *
    rw [Near, sub_self, abs_zero]
    positivity
  · have hbounds := scale_bounds (fun c hc => h c (hmore ▸ List.mem_append_right _ hc)) kept'
      (j := e - ds.length) (k := e - (ds.length - dropped.length : ℕ)) (by omega)
    refine near_of_leading (hfull hdropped) hpos ⟨le_rfl, ?_⟩ hbounds
    linarith

/-- What the reader keeps has the leading digits of the numeral. Behind digits of the whole part that
are dropped it may take a digit of the fraction, which does not change this. -/
theorem scaled_near {n : Numeral} (h : n.Proper) :
    Near (1 / 2 ^ 60) 0 (n.scaled.1 * (10 : ℚ) ^ n.scaled.2) n.size := by
  rw [Proper, List.forall_mem_append] at h
  obtain ⟨hwhole, hfraction⟩ := h
  obtain ⟨taken, hsplit, hkept⟩ := absorb_spec 0 n.whole
  have hfull := le_absorb hwhole 0
  rw [scaled_eq, size, digits, scale]
  dsimp only
  generalize (absorb 0 n.whole).1 = kept at *
  generalize (absorb 0 n.whole).2 = left at *
  generalize n.fraction.getD [] = fraction at *
  have hdigits : Nat.ofDigitChars 10 (n.whole ++ fraction) 0 =
      Nat.ofDigitChars 10 (left ++ fraction) kept := by
    rw [hsplit, List.append_assoc, Nat.ofDigitChars_append, ← hkept]
  rw [hdigits]
  by_cases hnil : left = []
  · have hnear := near_of_absorb hfraction kept (exponentValue n.exponent)
    rw [hnil, List.nil_append, List.length_nil, Nat.cast_zero, zero_sub, neg_add_eq_sub]
    exact hnear
  · obtain ⟨more, hmore, hkept'⟩ := absorb_spec kept fraction
    generalize (absorb kept fraction).1 = kept' at *
    generalize (absorb kept fraction).2 = dropped at *
    have hlength : fraction.length = more.length + dropped.length := by
      rw [hmore, List.length_append]
    have hleft : ∀ c ∈ left, c.isDigit = true :=
      fun c hc => hwhole c (hsplit ▸ List.mem_append_right _ hc)
    have hbounds := scale_bounds (List.forall_mem_append.2 ⟨hleft, hfraction⟩) kept
      (j := exponentValue n.exponent - fraction.length)
      (k := left.length + exponentValue n.exponent) (by rw [List.length_append]; omega)
    have hbounds' := scale_bounds (fun c hc => hfraction c (hmore ▸ List.mem_append_left _ hc)) kept
      (j := left.length - (fraction.length - dropped.length : ℕ) + exponentValue n.exponent)
      (k := left.length + exponentValue n.exponent) (by omega)
    rw [← hkept'] at hbounds'
    exact near_of_leading (hfull hnil) (zpow_pos (by norm_num) _) hbounds' hbounds

end Numeral

end TypedSql
