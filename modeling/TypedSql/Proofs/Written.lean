import TypedSql.Proofs.Composition

/-! What tokens become in a context, whatever the mode: each token is one piece, and a literal may
bind a value besides. The number of values that are bound before it decides the placeholder. -/

namespace TypedSql

namespace Piece

theorem join_cons (piece : Piece) (pieces : List Piece) :
    join (piece :: pieces) = piece.text ++ join pieces := by
  rw [join, List.map_cons, String.join_cons, join]

end Piece

namespace Token

/-- The piece that a token becomes where `count` values are bound before it. -/
def piece (o : Options) (count : Nat) : Token → Piece
  | text s => .raw s
  | ident i => .raw (Text.quoted '"' i)
  | literal l => if o.paramsMode then .placeholder (count + 1) else .raw (l.sql o.escaping)

/-- The value that a token binds. -/
def value? (o : Options) : Token → Option Parameter
  | literal l => if o.paramsMode then some (.ofLiteral l) else none
  | _ => none

/-- The pieces of tokens where `count` values are bound before them. -/
def pieces (o : Options) : (count : Nat) → List Token → List Piece
  | _, [] => []
  | count, token :: tokens =>
    token.piece o count :: pieces o (count + (token.value? o).toList.length) tokens

theorem pieces_append (o : Options) (count : Nat) (a b : List Token) :
    pieces o count (a ++ b) =
      pieces o count a ++ pieces o (count + (a.filterMap (value? o)).length) b := by
  induction a generalizing count with
  | nil => rfl
  | cons token a ih =>
      rw [List.cons_append, pieces, pieces, ih, List.cons_append, Nat.add_assoc,
        ← List.length_append, List.filterMap_cons]
      cases token.value? o <;> rfl

/-- The characters of tokens where `count` values are bound before them. -/
def written (o : Options) (count : Nat) (tokens : List Token) : List Char :=
  (Piece.join (pieces o count tokens)).toList

theorem written_cons (o : Options) (count : Nat) (token : Token) (tokens : List Token) :
    written o count (token :: tokens) = (token.piece o count).text.toList
      ++ written o (count + (token.value? o).toList.length) tokens := by
  rw [written, pieces, Piece.join_cons, String.toList_append, written]

theorem written_append (o : Options) (count : Nat) (a b : List Token) :
    written o count (a ++ b) =
      written o count a ++ written o (count + (a.filterMap (value? o)).length) b := by
  rw [written, pieces_append, Piece.join_append, String.toList_append, written, written]

/-- Where literals are written no value is bound. -/
theorem value?_of_plain {o : Options} (hmode : o.paramsMode = false) (token : Token) :
    token.value? o = none := by
  cases token with
  | literal l =>
      rw [value?, hmode]
      rfl
  | _ => rfl

end Token

namespace Context

variable (o : Options) (c : Context)

theorem pieces_put (token : Token) :
    (c.put o token).pieces.toList = c.pieces.toList ++ [token.piece o c.params.size] := by
  cases token with
  | literal l =>
      rw [put, literal, Token.piece]
      cases o.paramsMode <;> exact Array.toList_push
  | _ => exact Array.toList_push

theorem params_put (token : Token) :
    (c.put o token).params.toList = c.params.toList ++ (token.value? o).toList := by
  cases token with
  | literal l =>
      rw [put, literal, Token.value?]
      cases o.paramsMode with
      | false => exact (List.append_nil _).symm
      | true => exact Array.toList_push
  | _ => exact (List.append_nil _).symm

theorem pieces_putAll (tokens : List Token) : (c.putAll o tokens).pieces.toList =
    c.pieces.toList ++ Token.pieces o c.params.size tokens := by
  induction tokens generalizing c with
  | nil => exact (List.append_nil _).symm
  | cons token tokens ih =>
      have hsize : (c.put o token).params.size =
          c.params.size + (token.value? o).toList.length := by
        rw [← Array.length_toList, params_put, List.length_append, Array.length_toList]
      rw [putAll_cons, ih, pieces_put, hsize, Token.pieces, List.append_assoc,
        List.singleton_append]

theorem values_putAll (tokens : List Token) : (c.putAll o tokens).params.toList =
    c.params.toList ++ tokens.filterMap (Token.value? o) := by
  induction tokens generalizing c with
  | nil => exact (List.append_nil _).symm
  | cons token tokens ih =>
      rw [putAll_cons, ih, params_put, List.append_assoc, List.filterMap_cons]
      cases token.value? o <;> rfl

/-- The text of tokens that are put into a fresh context. -/
theorem sql_putAll_fresh (tokens : List Token) :
    (({} : Context).putAll o tokens).sql = Piece.join (Token.pieces o 0 tokens) := by
  rw [sql_eq_join, pieces_putAll]
  rfl

end Context

theorem Text.separated_append_of_ne_empty {w : String} (h : Separated w.toList) (hw : w ≠ "")
    (rest : List Char) : Separated (w.toList ++ rest) := by
  obtain ⟨c, cs, hcs⟩ := List.exists_cons_of_ne_nil fun hnil => hw (String.toList_eq_nil_iff.1 hnil)
  rw [hcs] at h ⊢
  exact h

/-- What can follow anything is separated, also where it writes nothing. -/
theorem Script.Leads.separated_written {s : Script} (hs : Leads s) (o : Options) (count : Nat)
    {rest : List Char} (hrest : Text.Separated rest) :
    Text.Separated (Token.written o count (tokens s) ++ rest) := by
  induction s with
  | nil => exact hrest
  | cons step steps ih =>
      cases step with
      | text w =>
          rw [tokens, Step.tokens, List.singleton_append, Token.written_cons, List.append_assoc,
            Token.piece, Piece.text]
          by_cases hw : w = ""
          · rw [hw]
            exact ih (hs.2 hw)
          · exact Text.separated_append_of_ne_empty hs.1 hw _
      | _ => exact hs.elim

end TypedSql
