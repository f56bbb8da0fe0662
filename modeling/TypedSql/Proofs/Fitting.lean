import Mathlib.Data.List.Infix
import TypedSql.Text.Fitting

/-! What a cut to a number of bytes leaves of a text: the longest of its prefixes that the bytes
suffice for. -/

namespace TypedSql.Text

/-- The text `q` is the longest prefix of `s` that takes at most `limit` bytes. -/
structure Longest (limit : Nat) (s q : String) : Prop where
  start : q.toList <+: s.toList
  size_le : q.utf8ByteSize ≤ limit
  longest : ∀ q' : String, q'.toList <+: s.toList → q'.utf8ByteSize ≤ limit →
    q'.toList <+: q.toList

/-- Where the text takes more bytes, the next character would not fit, and it has no more than four. -/
theorem Longest.lt_size_add {limit : Nat} {s q : String} (h : Longest limit s q)
    (hs : limit < s.utf8ByteSize) : limit < q.utf8ByteSize + 4 := by
  obtain ⟨rest, hrest⟩ := h.start
  cases rest with
  | nil =>
      rw [List.append_nil, String.toList_inj] at hrest
      have hle := h.size_le
      rw [hrest] at hle
      omega
  | cons c rest =>
      by_contra hroom
      have hlonger : (q.push c).toList <+: s.toList := by
        rw [String.toList_push, ← hrest, List.prefix_append_right_inj]
        exact ⟨rest, rfl⟩
      have hsize : (q.push c).utf8ByteSize ≤ limit := by
        have hc := c.utf8Size_le_four
        rw [String.utf8ByteSize_push]
        omega
      have hlength := (h.longest _ hlonger hsize).length_le
      rw [String.toList_push, List.length_append, List.length_singleton] at hlength
      omega

/-- Of two prefixes of a text, the one with fewer bytes is a prefix of the other. -/
theorem prefix_of_size_le {s q q' : String} (h : q.toList <+: s.toList) (h' : q'.toList <+: s.toList)
    (hsize : q.utf8ByteSize ≤ q'.utf8ByteSize) : q.toList <+: q'.toList := by
  rcases List.prefix_or_prefix_of_prefix h h' with hprefix | ⟨more, hmore⟩
  · exact hprefix
  · have hq : q = q' ++ String.ofList more := by
      rw [← String.toList_inj, String.toList_append, String.toList_ofList, hmore]
    rw [hq, String.utf8ByteSize_append] at hsize
    have hempty : String.ofList more = "" := String.utf8ByteSize_eq_zero_iff.1 (by omega)
    rw [hq, hempty, String.append_empty]

/-- The steps back find a boundary, and it is the last one that is not behind the offset. -/
theorem exists_boundary? (s : String) (offset : Nat) : ∃ p, boundary? s offset = some p ∧
    p.offset.byteIdx ≤ offset ∧
      ∀ q : s.Pos, q.offset.byteIdx ≤ offset → q.offset.byteIdx ≤ p.offset.byteIdx := by
  induction offset with
  | zero =>
      have hzero : (⟨0⟩ : String.Pos.Raw).IsValid s := String.Pos.Raw.isValid_zero
      exact ⟨_, boundary?_of_isValid hzero, Nat.le_refl 0, fun _ hq => hq⟩
  | succ offset ih =>
      by_cases h : (⟨offset + 1⟩ : String.Pos.Raw).IsValid s
      · exact ⟨_, boundary?_of_isValid h, Nat.le_refl _, fun _ hq => hq⟩
      · obtain ⟨p, hp, hle, hlast⟩ := ih
        refine ⟨p, (boundary?_succ h).trans hp, Nat.le_succ_of_le hle, fun q hq => ?_⟩
        have hne : q.offset.byteIdx ≠ offset + 1 := by
          intro heq
          have hoffset : q.offset = ⟨offset + 1⟩ := String.Pos.Raw.ext heq
          exact h (hoffset ▸ q.isValid)
        exact hlast q (by omega)

section Position

variable {s : String}

/-- What stands before a position. -/
theorem prefix_sliceTo (p : s.Pos) : (s.sliceTo p).copy.toList <+: s.toList := by
  have hsplits := congrArg String.toList p.splits.eq_append
  rw [String.toList_append] at hsplits
  exact ⟨_, hsplits.symm⟩

theorem utf8ByteSize_sliceTo (p : s.Pos) : (s.sliceTo p).copy.utf8ByteSize = p.offset.byteIdx := by
  rw [p.splits.offset_eq_rawEndPos, String.byteIdx_rawEndPos]

/-- Behind each prefix of a text stands a position. -/
theorem exists_position {q : String} (h : q.toList <+: s.toList) :
    ∃ p : s.Pos, p.offset.byteIdx = q.utf8ByteSize := by
  obtain ⟨rest, hrest⟩ := h
  have hs : s = q ++ String.ofList rest := by
    rw [← String.toList_inj, String.toList_append, String.toList_ofList, hrest]
  have hvalid : q.rawEndPos.IsValid s :=
    String.Pos.Raw.isValid_iff_exists_append.2 ⟨q, String.ofList rest, hs, rfl⟩
  exact ⟨⟨q.rawEndPos, hvalid⟩, String.byteIdx_rawEndPos⟩

end Position

section Cut

variable {limit : Nat} {s : String}

theorem cut?_eq_fitting (limit : Nat) (s : String) : cut? limit s = some (fitting limit s) :=
  (Option.some_get _).symm

theorem fitting_of_le (h : s.utf8ByteSize ≤ limit) : fitting limit s = s :=
  Option.some.inj ((cut?_eq_fitting limit s).symm.trans (if_pos h))

/-- A text with too many bytes is cut at the boundary that the steps back find. -/
theorem fitting_of_lt {p : s.Pos} (h : limit < s.utf8ByteSize) (hp : boundary? s limit = some p) :
    fitting limit s = (s.sliceTo p).copy := by
  have hcut : cut? limit s = some (s.sliceTo p).copy := by
    rw [cut?, if_neg (Nat.not_le.2 h), hp, Option.map_some]
  exact Option.some.inj ((cut?_eq_fitting limit s).symm.trans hcut)

theorem longest_fitting (limit : Nat) (s : String) : Longest limit s (fitting limit s) := by
  by_cases h : s.utf8ByteSize ≤ limit
  · rw [fitting_of_le h]
    exact ⟨List.prefix_rfl, h, fun _ hq _ => hq⟩
  · obtain ⟨p, hp, hle, hlast⟩ := exists_boundary? s limit
    rw [fitting_of_lt (Nat.lt_of_not_le h) hp]
    refine ⟨prefix_sliceTo p, (utf8ByteSize_sliceTo p).trans_le hle, fun q hq hsize => ?_⟩
    obtain ⟨position, hposition⟩ := exists_position hq
    refine prefix_of_size_le hq (prefix_sliceTo p) ?_
    rw [utf8ByteSize_sliceTo, ← hposition]
    exact hlast position (hposition ▸ hsize)

end Cut

end TypedSql.Text
