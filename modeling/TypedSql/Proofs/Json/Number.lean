import TypedSql.Parameter
import TypedSql.Proofs.Json.Reading

/-! What becomes of an exact number in JSON. A text that is no number of the grammar stays a string; an integer
of 64 bits keeps its text, and every other number becomes a float, if it is not too large. -/

namespace TypedSql

namespace Numeral

/-- An integer of 64 bits, unsigned or signed, that is not negative zero. -/
structure IsInteger (n : Numeral) : Prop where
  fraction : n.fraction = none
  exponent : n.exponent = none
  sign : n.negative = true → n.value ≠ 0
  least : -2 ^ 63 ≤ n.value
  greatest : n.value ≤ 2 ^ 64 - 1

theorem value_of_whole {n : Numeral} (hfraction : n.fraction = none) (hexponent : n.exponent = none) :
    n.value = if n.negative then -(natValue n.whole : ℚ) else natValue n.whole := by
  have hsize : n.size = natValue n.whole := by
    rw [size, scale, digits, hfraction, hexponent, natValue_eq]
    simp [exponentValue]
  rw [value, hsize]

end Numeral

namespace JsonNumber

open Numeral

theorem integer?_of_whole {n : Numeral} (hfraction : n.fraction = none) (hexponent : n.exponent = none) :
    integer? n =
      if n.negative then
        if 0 < natValue n.whole ∧ natValue n.whole ≤ 2 ^ 63 then some (-(natValue n.whole : Int)) else none
      else if natValue n.whole < 2 ^ 64 then some (natValue n.whole : Int) else none := by
  rw [integer?, hfraction, hexponent]
  rfl

theorem whole_of_integer? {n : Numeral} {v : Int} (h : integer? n = some v) :
    n.fraction = none ∧ n.exponent = none := by
  rw [integer?] at h
  split at h
  · cases h
  · rename_i hwhole
    rwa [Bool.or_eq_true, not_or, Bool.not_eq_true, Option.isSome_eq_false_iff,
      Option.isNone_iff_eq_none, Bool.not_eq_true, Option.isSome_eq_false_iff,
      Option.isNone_iff_eq_none] at hwhole

theorem isInteger_of_integer? {n : Numeral} {v : Int} (h : integer? n = some v) :
    n.IsInteger ∧ n.value = v := by
  obtain ⟨hfraction, hexponent⟩ := whole_of_integer? h
  have hvalue := value_of_whole hfraction hexponent
  rw [integer?_of_whole hfraction hexponent] at h
  by_cases hsign : n.negative = true
  · rw [if_pos hsign] at h hvalue
    split at h
    · rename_i hrange
      cases h
      have hpos : (0 : ℚ) < natValue n.whole := by exact_mod_cast hrange.1
      have hle : (natValue n.whole : ℚ) ≤ 2 ^ 63 := by exact_mod_cast hrange.2
      refine ⟨⟨hfraction, hexponent, fun _ => ?_, ?_, ?_⟩, by push_cast; exact hvalue⟩
      all_goals
        rw [hvalue]
        linarith
    · cases h
  · rw [if_neg hsign] at h hvalue
    split at h
    · rename_i hrange
      cases h
      have hnonneg : (0 : ℚ) ≤ natValue n.whole := Nat.cast_nonneg _
      have hle : (natValue n.whole + 1 : ℚ) ≤ 2 ^ 64 := by exact_mod_cast hrange
      refine ⟨⟨hfraction, hexponent, fun h => absurd h hsign, ?_, ?_⟩, by push_cast; exact hvalue⟩
      all_goals
        rw [hvalue]
        linarith
    · cases h

theorem integer?_of_isInteger {n : Numeral} (h : n.IsInteger) : ∃ v, integer? n = some v := by
  obtain ⟨hfraction, hexponent, hzero, hleast, hgreatest⟩ := h
  rw [integer?_of_whole hfraction hexponent]
  rw [value_of_whole hfraction hexponent] at hzero hleast hgreatest
  by_cases hsign : n.negative = true
  · rw [if_pos hsign] at hzero hleast hgreatest
    have hpos : 0 < natValue n.whole := by
      rw [Nat.pos_iff_ne_zero]
      intro hm
      rw [hm, Nat.cast_zero, neg_zero] at hzero
      exact hzero hsign rfl
    have hle : natValue n.whole ≤ 2 ^ 63 := by
      have hcast : (natValue n.whole : ℚ) ≤ 2 ^ 63 := by linarith
      exact_mod_cast hcast
    rw [if_pos hsign, if_pos ⟨hpos, hle⟩]
    exact ⟨_, rfl⟩
  · rw [if_neg hsign] at hgreatest
    have hlt : natValue n.whole < 2 ^ 64 := by
      have hcast : (natValue n.whole : ℚ) < 2 ^ 64 := by linarith
      exact_mod_cast hcast
    rw [if_neg hsign, if_pos hlt]
    exact ⟨_, rfl⟩

theorem integer?_eq_none {n : Numeral} (h : ¬ n.IsInteger) : integer? n = none := by
  cases hv : integer? n with
  | none => rfl
  | some v => exact absurd (isInteger_of_integer? hv).1 h

/-- An integer is printed as it was spelled. -/
theorem text_integer {n : Numeral} {cs : List Char} (hspells : n.Spells cs) {v : Int}
    (hv : integer? n = some v) : (integer v).text.toList = cs := by
  obtain ⟨negative, whole, fraction, exponent⟩ := n
  obtain ⟨f, e, rfl, hwhole, hf, he⟩ := hspells
  obtain ⟨hfraction, hexponent⟩ := whole_of_integer? hv
  dsimp only at hfraction hexponent hwhole hf he ⊢
  subst hfraction hexponent
  cases hf
  cases he
  have hdigits := hwhole.toDigits
  rw [← natValue_eq] at hdigits
  rw [List.append_nil, List.append_nil]
  rw [integer?_of_whole rfl rfl] at hv
  dsimp only at hv
  cases negative with
  | false =>
      rw [if_neg Bool.false_ne_true] at hv ⊢
      split at hv
      · cases hv
        have htext : (integer (natValue whole)).text = String.ofList (Nat.toDigits 10 (natValue whole)) :=
          rfl
        rw [htext, hdigits, String.toList_ofList, List.nil_append]
      · cases hv
  | true =>
      rw [if_pos rfl] at hv ⊢
      split at hv
      · rename_i hrange
        cases hv
        obtain ⟨k, hk⟩ : ∃ k, natValue whole = k + 1 := ⟨natValue whole - 1, by omega⟩
        have htext : (integer (-((k + 1 : ℕ) : Int))).text =
            "-" ++ String.ofList (Nat.toDigits 10 (k + 1)) := rfl
        rw [hk, htext, ← hk, hdigits, String.toList_append]
        exact congrArg ('-' :: ·) String.toList_ofList
      · cases hv

end JsonNumber

/-! ### Floats -/

namespace Numeral

/-- Digits and a power of ten that are numbers themselves: they survive reading and printing. -/
structure IsShort (n : Numeral) : Prop where
  digits : n.digits < 10 ^ 15
  low : -22 ≤ n.scale
  high : n.scale ≤ 22

/-- A float that stands for a numeral: it has its sign, is near to it, and nearest if the numeral is short. -/
structure ReadAs (n : Numeral) (x : Double) : Prop where
  isFinite : x.isFinite = true
  sign : x.isNegative = n.negative
  near : Near (13 / 2 / 2 ^ 53) (2 * Double.tiny) x.magnitude n.size
  covers : n.IsShort → x.Covers n.size

theorem readAs_of_magnitude? {n : Numeral} (hproper : n.Proper) {x : Double} (hx : magnitude? n = some x) :
    n.ReadAs (if n.negative then x.negate else x) := by
  obtain ⟨hfinite, hsign, hnear⟩ := magnitude?_readFor hproper hx
  have hcovers (hshort : n.IsShort) : x.Covers n.size := by
    obtain ⟨x', hx', hcovers⟩ :=
      magnitude?_covers (hshort.digits.trans (by norm_num)) hshort.low hshort.high
    rw [hx, Option.some_inj] at hx'
    rwa [hx']
  cases hnegative : n.negative with
  | true =>
      rw [if_pos rfl]
      refine ⟨?_, ?_, ?_, fun hshort => (hcovers hshort).negate⟩
      · rw [Double.negate_isFinite, hfinite]
      · rw [Double.negate_isNegative, hsign, hnegative]
        rfl
      · rw [Double.negate_magnitude]
        exact hnear
  | false =>
      rw [if_neg Bool.false_ne_true]
      exact ⟨hfinite, hsign.trans hnegative.symm, hnear, hcovers⟩

end Numeral

/-! ### The JSON form -/

namespace Parameter

open Numeral

variable {t : String} {n : Numeral}

theorem toJson_numeric_of_none (h : JsonNumber.ofText? t = none) : (numeric t).toJson = .string t := by
  rw [toJson, h]

theorem toJson_numeric_of_some {j : JsonNumber} (h : JsonNumber.ofText? t = some j) :
    (numeric t).toJson = .number j := by
  rw [toJson, h]

theorem toJson_numeric_of_not_stands (h : ∀ n : Numeral, ¬ n.Stands t.toList) :
    (numeric t).toJson = .string t := by
  apply toJson_numeric_of_none
  rw [JsonNumber.ofText?, Option.bind_eq_none_iff]
  intro n hread
  exact absurd (read?_eq_some_iff.1 hread) (h n)

theorem ofText?_of_stands (h : n.Stands t.toList) : JsonNumber.ofText? t = JsonNumber.ofNumeral? n := by
  rw [JsonNumber.ofText?, read?_eq_some_iff.2 h, Option.bind_some]

theorem toJson_numeric_of_isInteger (hstands : n.Stands t.toList) (hinteger : n.IsInteger) :
    ∃ v, JsonNumber.integer? n = some v ∧ (numeric t).toJson = .number (.integer v) := by
  obtain ⟨v, hv⟩ := JsonNumber.integer?_of_isInteger hinteger
  refine ⟨v, hv, toJson_numeric_of_some ?_⟩
  rw [ofText?_of_stands hstands, JsonNumber.ofNumeral?, hv]

/-- What is not an integer becomes a float, unless it is too large. -/
theorem toJson_numeric_of_not_isInteger (hstands : n.Stands t.toList) (hfloat : ¬ n.IsInteger) :
    (∃ x, n.ReadAs x ∧ (numeric t).toJson = .number (.float x)) ∧ n.size < 2 ^ 1024 * (1 + 1 / 2 ^ 51) ∨
      (numeric t).toJson = .string t ∧ 2 ^ 1024 * (1 - 1 / 2 ^ 51) ≤ n.size := by
  have hread := ofText?_of_stands hstands
  obtain ⟨-, cs, -, -, -, -, hspells⟩ := hstands
  rw [JsonNumber.ofNumeral?, JsonNumber.integer?_eq_none hfloat] at hread
  dsimp only at hread
  cases hx : magnitude? n with
  | none =>
      rw [hx, Option.map_none] at hread
      exact .inr ⟨toJson_numeric_of_none hread, le_size_of_none hspells.proper hx⟩
  | some x =>
      rw [hx, Option.map_some] at hread
      refine .inl ⟨⟨_, readAs_of_magnitude? hspells.proper hx, toJson_numeric_of_some hread⟩, ?_⟩
      by_contra hlarge
      rw [none_of_le_size hspells.proper (not_lt.1 hlarge)] at hx
      cases hx

/-- What a text becomes in JSON. A text that is not a number with blanks around it stays a string. An integer
of 64 bits becomes an integer that is printed as the text without its blanks. Any other number becomes a
float or, if it is too large, stays a string; where that begins is known up to `2 ^ 973`, since digits and
power are rounded before they are multiplied. -/
theorem toJson_numeric (t : String) :
    ((∀ n : Numeral, ¬ n.Stands t.toList) → (numeric t).toJson = .string t) ∧
      ∀ n : Numeral, n.Stands t.toList →
        (n.IsInteger → ∃ v : Int, (numeric t).toJson = .number (.integer v) ∧ n.value = v ∧
          ∃ before after : List Char, (∀ c ∈ before, isBlank c = true) ∧ (∀ c ∈ after, isBlank c = true) ∧
            t.toList = before ++ ((JsonNumber.integer v).text.toList ++ after)) ∧
        (¬ n.IsInteger →
          ((∃ x, (numeric t).toJson = .number (.float x) ∧ x.isFinite = true) ∨
            (numeric t).toJson = .string t) ∧
          (n.size < 2 ^ 1024 * (1 - 1 / 2 ^ 51) → ∃ x, (numeric t).toJson = .number (.float x)) ∧
          (2 ^ 1024 * (1 + 1 / 2 ^ 51) ≤ n.size → (numeric t).toJson = .string t)) := by
  refine ⟨toJson_numeric_of_not_stands, fun n hstands => ⟨fun hinteger => ?_, fun hfloat => ?_⟩⟩
  · obtain ⟨v, hv, hjson⟩ := toJson_numeric_of_isInteger hstands hinteger
    obtain ⟨before, cs, after, htext, hbefore, hafter, hspells⟩ := hstands
    refine ⟨v, hjson, (JsonNumber.isInteger_of_integer? hv).2, before, after, hbefore, hafter, ?_⟩
    rw [JsonNumber.text_integer hspells hv, htext]
  · rcases toJson_numeric_of_not_isInteger hstands hfloat with
      ⟨⟨x, hx, hjson⟩, hsmall⟩ | ⟨hjson, hlarge⟩
    · exact ⟨.inl ⟨x, hjson, hx.isFinite⟩, fun _ => ⟨x, hjson⟩, fun h => absurd h (not_le.2 hsmall)⟩
    · exact ⟨.inr hjson, fun h => absurd h (not_lt.2 hlarge), fun _ => hjson⟩

theorem toJson_numeric_texts : (numeric "01").toJson = .string "01" ∧
    (∃ v : Int, (numeric " -7\n").toJson = .number (.integer v) ∧ (v : ℚ) = -7) ∧
    (∃ x, (numeric "1.5").toJson = .number (.float x)) ∧
    (numeric "1e400").toJson = .string "1e400" := by
  have hpadded : Numeral.Stands ⟨true, ['7'], none, none⟩ " -7\n".toList :=
    read?_eq_some_iff.1 (by decide)
  have hpoint : Numeral.Stands ⟨false, ['1'], some ['5'], none⟩ "1.5".toList :=
    read?_eq_some_iff.1 (by decide)
  have hlarge : Numeral.Stands ⟨false, ['1'], none, some (false, ['4', '0', '0'])⟩ "1e400".toList :=
    read?_eq_some_iff.1 (by decide)
  have hseven : (⟨true, ['7'], none, none⟩ : Numeral).value = -7 := value_of_whole rfl rfl
  refine ⟨?_, ?_, ?_, ?_⟩
  · refine (toJson_numeric "01").1 fun n hstands => ?_
    have hread : read? "01".toList = none := by decide
    rw [read?_eq_some_iff.2 hstands] at hread
    cases hread
  · have hinteger : (⟨true, ['7'], none, none⟩ : Numeral).IsInteger := by
      refine ⟨rfl, rfl, fun _ => ?_, ?_, ?_⟩ <;> rw [hseven] <;> norm_num
    obtain ⟨v, hjson, hv, -⟩ := ((toJson_numeric " -7\n").2 _ hpadded).1 hinteger
    exact ⟨v, hjson, hv.symm.trans hseven⟩
  · refine (((toJson_numeric "1.5").2 _ hpoint).2 fun h => by cases h.fraction).2.1 ?_
    have hsize : (⟨false, ['1'], some ['5'], none⟩ : Numeral).size = (15 : ℕ) * (10 : ℚ) ^ (-1 : Int) :=
      rfl
    have hlimit : (4 : ℚ) ≤ 2 ^ 1024 := by
      have hnat : 4 ≤ 2 ^ 1024 := by decide +kernel
      exact_mod_cast hnat
    rw [hsize]
    generalize (2 : ℚ) ^ 1024 = limit at *
    norm_num
    linarith
  · refine (((toJson_numeric "1e400").2 _ hlarge).2 fun h => by cases h.exponent).2.2 ?_
    have hsize : (⟨false, ['1'], none, some (false, ['4', '0', '0'])⟩ : Numeral).size =
        (1 : ℕ) * (10 : ℚ) ^ (400 : Int) := rfl
    have hlimit : (2 * 2 ^ 1024 : ℚ) ≤ (10 : ℚ) ^ (400 : Int) := by
      have hnat : 2 * 2 ^ 1024 ≤ 10 ^ 400 := by decide +kernel
      exact_mod_cast hnat
    have hpos : (0 : ℚ) < 2 ^ 1024 := by positivity
    rw [hsize, Nat.cast_one, one_mul]
    generalize (2 : ℚ) ^ 1024 = limit at *
    generalize (10 : ℚ) ^ (400 : Int) = power at *
    linarith

/-- A number that is smaller than the largest float, but not read: its twenty digits are rounded up, and so is
their product with the power. -/
theorem toJson_numeric_below_largest : ∃ n : Numeral, n.Stands "1.7976931348623157081e308".toList ∧
    n.size < (⟨0x7FEFFFFFFFFFFFFF⟩ : Double).magnitude ∧
    (numeric "1.7976931348623157081e308").toJson = .string "1.7976931348623157081e308" := by
  have hstands : Numeral.Stands
      ⟨false, ['1'], some "7976931348623157081".toList, some (false, ['3', '0', '8'])⟩
      "1.7976931348623157081e308".toList := read?_eq_some_iff.1 (by decide)
  refine ⟨_, hstands, ?_, ?_⟩
  · have hsize : (⟨false, ['1'], some "7976931348623157081".toList, some (false, ['3', '0', '8'])⟩ :
        Numeral).size = (17976931348623157081 : ℕ) * (10 : ℚ) ^ (289 : Int) := rfl
    have hlargest : (⟨0x7FEFFFFFFFFFFFFF⟩ : Double).magnitude =
        (9007199254740991 : ℕ) * (2 : ℚ) ^ (971 : Int) := rfl
    have hlt : 17976931348623157081 * 10 ^ 289 < 9007199254740991 * 2 ^ 971 := by decide +kernel
    rw [hsize, hlargest]
    exact_mod_cast hlt
  · have hnone : (magnitude? ⟨false, ['1'], some "7976931348623157081".toList,
        some (false, ['3', '0', '8'])⟩).isNone = true := by decide +kernel
    apply toJson_numeric_of_none
    rw [ofText?_of_stands hstands, JsonNumber.ofNumeral?, Option.isNone_iff_eq_none.1 hnone]
    rfl

end Parameter

end TypedSql
