/-! Quoted text: the text stands between two quotes, and a quote inside it is written twice, so a
quote that stands alone always closes the text. -/

namespace TypedSql.Text

/-- Writes every `quote` twice and all other characters once. -/
def doubled (quote : Char) : List Char → List Char
  | [] => []
  | c :: cs => if c = quote then quote :: quote :: doubled quote cs else c :: doubled quote cs

/-- The text between two quotes, with the quotes inside it doubled. -/
def quoted (quote : Char) (s : String) : String :=
  String.ofList (quote :: (doubled quote s.toList ++ [quote]))

theorem toList_quoted_append (quote : Char) (s : String) (rest : List Char) :
    (quoted quote s).toList ++ rest = quote :: (doubled quote s.toList ++ quote :: rest) := by
  rw [quoted, String.toList_ofList, List.cons_append, List.append_assoc, List.singleton_append]

/-- The text between two quotes, with nothing done to the quotes inside it. -/
def enclosed (quote : Char) (s : String) : String :=
  String.ofList (quote :: (s.toList ++ [quote]))

end TypedSql.Text
