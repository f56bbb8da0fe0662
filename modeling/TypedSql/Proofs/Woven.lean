import TypedSql.Proofs.Written

/-! Texts with holes. What is between the holes is fixed, and the holes are filled in their order. -/

namespace TypedSql

namespace Text

/-- The text `first`, and then what is in each hole with the text after that hole. -/
def woven (first : String) (holes rest : List String) : String :=
  first ++ String.join (List.zipWith (· ++ ·) holes rest)

/-- The text before the first hole and the texts after each hole, where a part that is `none` is a
hole. -/
def gaps : List (Option String) → String × List String
  | [] => ("", [])
  | some s :: parts => (s ++ (gaps parts).1, (gaps parts).2)
  | none :: parts => ("", (gaps parts).1 :: (gaps parts).2)

/-- The parts with their holes filled. -/
def fill (holes : List String) (parts : List (Option String)) : String :=
  woven (gaps parts).1 holes (gaps parts).2

variable (holes : List String) (parts : List (Option String))

theorem fill_some (s : String) : fill holes (some s :: parts) = s ++ fill holes parts :=
  String.append_assoc

theorem fill_none (hole : String) :
    fill (hole :: holes) (none :: parts) = hole ++ fill holes parts := by
  rw [fill, gaps, woven, List.zipWith_cons_cons, String.join_cons, String.empty_append,
    String.append_assoc]
  rfl

/-- There is one text after each hole. -/
theorem length_gaps : (gaps parts).2.length = parts.countP Option.isNone := by
  induction parts with
  | nil => rfl
  | cons part parts ih =>
      cases part with
      | none => rw [gaps, List.length_cons, ih, List.countP_cons_of_pos rfl]
      | some s => rw [gaps, ih, List.countP_cons_of_neg Bool.false_ne_true]

end Text

end TypedSql
