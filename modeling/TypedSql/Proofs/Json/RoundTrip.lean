import TypedSql.Proofs.Json.Number
import TypedSql.Proofs.Json.Printing

/-! The value that a number keeps on its way through JSON. Integers of 64 bits and numbers of fifteen digits
keep it; the others move by a small part of it, so that texts of different value can become one number. -/

namespace TypedSql

open Numeral Double

namespace Numeral

variable {n p : Numeral}

theorem value_eq_of_size (hsign : p.negative = n.negative) (hsize : p.size = n.size) :
    p.value = n.value := by
  rw [value, value, hsign, hsize]

theorem abs_value_sub (hsign : p.negative = n.negative) : |p.value - n.value| = |p.size - n.size| := by
  rw [value, value, hsign]
  split
  · rw [neg_sub_neg, abs_sub_comm]
  · rfl

/-- What is printed for a float that stands for a numeral. -/
theorem ReadAs.printed {x : Double} (h : n.ReadAs x) : ∃ p : Numeral, p.Spells (x.write .json).toList ∧
    (n.IsShort → p.value = n.value) ∧ |p.value - n.value| ≤ |n.value| / 2 ^ 50 + (2 : ℚ) ^ (-1073 : Int) := by
  obtain ⟨p, hp, hspells, hsize⟩ := write_spells h.isFinite .json
  rw [h.sign] at hp
  refine ⟨p, hspells, fun hshort => value_eq_of_size hp (hsize.trans ?_), ?_⟩
  · exact shortest_value hshort.digits hshort.low (hshort.high.trans (by norm_num)) (h.covers hshort)
  · -- Reading and printing each move the value by a part of it, and by what the smallest numbers leave.
    have hread := h.near
    have hprinted := (x.shortest_covers NumberFormat.json.tie).error
    rw [← hsize, abs_sub_comm] at hprinted
    have hle := hread.le
    have hnonneg := n.size_nonneg
    have htiny := tiny_pos
    have hsum := abs_sub_le p.size x.magnitude n.size
    have hpower : (2 : ℚ) ^ (-1073 : Int) = (2 : ℚ) ^ (2 : Int) * tiny := by
      rw [tiny, ← two_zpow_add]
      rfl
    rw [Near] at hread
    rw [abs_value_sub hp, abs_value, hpower]
    linarith

end Numeral

namespace Parameter

/-- The number that stands in a text, and the number that is printed for it in JSON. -/
theorem toJson_numeric_value {t : String} {j : JsonNumber} (h : (numeric t).toJson = .number j) :
    ∃ n p : Numeral, n.Stands t.toList ∧ p.Spells j.text.toList ∧
      (n.IsInteger ∨ n.IsShort → p.value = n.value) ∧
      |p.value - n.value| ≤ |n.value| / 2 ^ 50 + (2 : ℚ) ^ (-1073 : Int) := by
  obtain ⟨n, hstands⟩ : ∃ n : Numeral, n.Stands t.toList := by
    by_contra hnone
    rw [toJson_numeric_of_not_stands (not_exists.1 hnone)] at h
    cases h
  by_cases hinteger : n.IsInteger
  · obtain ⟨v, hv, hjson⟩ := toJson_numeric_of_isInteger hstands hinteger
    rw [h] at hjson
    cases hjson
    obtain ⟨before, cs, after, -, -, -, hspells⟩ := id hstands
    refine ⟨n, n, hstands, (JsonNumber.text_integer hspells hv).symm ▸ hspells, fun _ => rfl, ?_⟩
    rw [sub_self, abs_zero]
    positivity
  · rcases toJson_numeric_of_not_isInteger hstands hinteger with ⟨⟨x, hx, hjson⟩, -⟩ | ⟨hjson, -⟩
    · rw [h] at hjson
      cases hjson
      obtain ⟨p, hspells, hshort, hnear⟩ := hx.printed
      exact ⟨n, p, hstands, hspells, fun hexact => hshort (hexact.resolve_left hinteger), hnear⟩
    · rw [h] at hjson
      cases hjson

theorem toJson_numeric_value_thousands :
    (numeric "12e3").toJson = .number (.float ⟨0x40C7700000000000⟩) ∧
    ∃ p : Numeral, p.Spells (JsonNumber.float ⟨0x40C7700000000000⟩).text.toList ∧ p.value = 12000 := by
  have hread : read? "12e3".toList = some ⟨false, ['1', '2'], none, some (false, ['3'])⟩ := by decide
  have hjson : (numeric "12e3").toJson = .number (.float ⟨0x40C7700000000000⟩) := by
    apply toJson_numeric_of_some
    rw [JsonNumber.ofText?, hread]
    rfl
  obtain ⟨n, p, hn, hp, hvalue, -⟩ := toJson_numeric_value hjson
  rw [read?_eq_some_iff.2 hn, Option.some_inj] at hread
  subst hread
  have hshort : Numeral.IsShort ⟨false, ['1', '2'], none, some (false, ['3'])⟩ :=
    ⟨by decide, by decide, by decide⟩
  refine ⟨hjson, p, hp, (hvalue (.inr hshort)).trans ?_⟩
  have hsize : Numeral.value ⟨false, ['1', '2'], none, some (false, ['3'])⟩ =
      (12 : ℕ) * (10 : ℚ) ^ (3 : Int) := rfl
  rw [hsize]
  norm_num

/-- Two integers of thirty digits that become one number. -/
theorem toJson_numeric_merges : ∃ m n : Numeral, m.Stands "123456789012345678901234567890".toList ∧
    n.Stands "123456789012345680000000000000".toList ∧ m.value ≠ n.value ∧
    (numeric "123456789012345678901234567890").toJson = .number (.float ⟨0x45F8EE90FF6C373E⟩) ∧
    (numeric "123456789012345680000000000000").toJson = .number (.float ⟨0x45F8EE90FF6C373E⟩) := by
  have hleft : read? "123456789012345678901234567890".toList =
      some ⟨false, "123456789012345678901234567890".toList, none, none⟩ := by decide
  have hright : read? "123456789012345680000000000000".toList =
      some ⟨false, "123456789012345680000000000000".toList, none, none⟩ := by decide
  refine ⟨_, _, read?_eq_some_iff.1 hleft, read?_eq_some_iff.1 hright, ?_, ?_, ?_⟩
  · rw [value_of_whole rfl rfl, value_of_whole rfl rfl, if_neg Bool.false_ne_true, if_neg Bool.false_ne_true,
      Ne, Nat.cast_inj]
    decide
  · apply toJson_numeric_of_some
    rw [JsonNumber.ofText?, hleft]
    rfl
  · apply toJson_numeric_of_some
    rw [JsonNumber.ofText?, hright]
    rfl

end Parameter

end TypedSql
