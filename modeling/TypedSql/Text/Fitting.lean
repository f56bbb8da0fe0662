/-! Cutting a text to a number of bytes without cutting through a character. -/

namespace TypedSql.Text

/-- Steps back from an offset, byte by byte, to the first one that no character stands across. A step
back from zero would leave the text, and then there is none. -/
def boundary? (s : String) (offset : Nat) : Option s.Pos :=
  if h : (⟨offset⟩ : String.Pos.Raw).IsValid s then some ⟨⟨offset⟩, h⟩
  else
    match offset with
    | 0 => none
    | offset + 1 => boundary? s offset

/-- The text itself where it takes at most `limit` bytes, and else what stands before the boundary that
the steps back from `limit` find. -/
def cut? (limit : Nat) (s : String) : Option String :=
  if s.utf8ByteSize ≤ limit then some s
  else (boundary? s limit).map fun p => (s.sliceTo p).copy

theorem boundary?_of_isValid {s : String} {offset : Nat} (h : (⟨offset⟩ : String.Pos.Raw).IsValid s) :
    boundary? s offset = some ⟨⟨offset⟩, h⟩ := by
  rw [boundary?, dif_pos h]

theorem boundary?_succ {s : String} {offset : Nat}
    (h : ¬ (⟨offset + 1⟩ : String.Pos.Raw).IsValid s) :
    boundary? s (offset + 1) = boundary? s offset := by
  rw [boundary?.eq_def, dif_neg h]

/-- No step leaves the text, because zero is a boundary. -/
theorem isSome_boundary? (s : String) (offset : Nat) : (boundary? s offset).isSome := by
  induction offset with
  | zero => rw [boundary?_of_isValid String.Pos.Raw.isValid_zero, Option.isSome_some]
  | succ offset ih =>
      by_cases h : (⟨offset + 1⟩ : String.Pos.Raw).IsValid s
      · rw [boundary?_of_isValid h, Option.isSome_some]
      · rwa [boundary?_succ h]

theorem isSome_cut? (limit : Nat) (s : String) : (cut? limit s).isSome := by
  rw [cut?]
  split
  · rfl
  · rw [Option.isSome_map]
    exact isSome_boundary? s limit

/-- The longest prefix of the text that is made of whole characters and takes at most `limit`
bytes. -/
def fitting (limit : Nat) (s : String) : String :=
  (cut? limit s).get (isSome_cut? limit s)

end TypedSql.Text
