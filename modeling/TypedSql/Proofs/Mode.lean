import TypedSql.Proofs.Placeholder
import TypedSql.Proofs.Woven

/-! The two modes of a renderer. Whether literals are bound or written makes no difference to what
fails, and in a finished text the placeholders stand where the texts of the bound values stand
otherwise. -/

namespace TypedSql

namespace Parameter

/-- The literal that has a value. -/
def toLiteral : Parameter → Literal
  | null => .null
  | bool b => .bool b
  | string s => .string s
  | integer n => .integer n
  | float x => .float x
  | numeric text => .numeral text

theorem toLiteral_ofLiteral (l : Literal) : (ofLiteral l).toLiteral = l := by
  cases l <;> rfl

/-- What stands in a text for a value that is not bound. -/
def sql (escaping : Escaping) (p : Parameter) : String :=
  p.toLiteral.sql escaping

end Parameter

/-- The renderer where literals are bound, or where they are written. -/
def Renderer.inMode (r : Renderer) (bound : Bool) : Renderer :=
  { r with options := { r.options with paramsMode := bound } }

namespace Token

/-- The text of a token other than a literal. -/
def fixed? : Token → Option String
  | text s => some s
  | ident i => some (Text.quoted '"' i)
  | literal _ => none

/-- What stands in the places of the literals, where `count` values are bound before them. -/
def holes (o : Options) : (count : Nat) → List Token → List String
  | _, [] => []
  | count, literal l :: tokens =>
    ((literal l).piece o count).text :: holes o (count + ((literal l).value? o).toList.length) tokens
  | count, _ :: tokens => holes o count tokens

variable {o : Options} (count : Nat) (tokens : List Token)

theorem join_pieces : Piece.join (pieces o count tokens) =
    Text.fill (holes o count tokens) (tokens.map fixed?) := by
  induction tokens generalizing count with
  | nil => rfl
  | cons token tokens ih =>
      rw [pieces, Piece.join_cons, ih, List.map_cons]
      cases token with
      | literal l => exact (Text.fill_none _ _ _).symm
      | _ => exact (Text.fill_some _ _ _).symm

theorem holes_of_plain (hmode : o.paramsMode = false) :
    holes o count tokens = (tokens.filterMap literal?).map (Literal.sql o.escaping) := by
  induction tokens generalizing count with
  | nil => rfl
  | cons token tokens ih =>
      cases token with
      | literal l =>
          rw [holes, ih, piece, hmode]
          rfl
      | _ => exact ih count

theorem holes_of_bound (hmode : o.paramsMode = true) : holes o count tokens =
    (List.range' (count + 1) (tokens.filterMap literal?).length).map fun i => s!"${i}" := by
  induction tokens generalizing count with
  | nil => rfl
  | cons token tokens ih =>
      cases token with
      | literal l =>
          rw [holes, ih, piece, value?, if_pos hmode, if_pos hmode]
          rfl
      | _ => exact ih count

theorem length_gaps_fixed :
    (Text.gaps (tokens.map fixed?)).2.length = (tokens.filterMap literal?).length := by
  rw [Text.length_gaps, List.countP_map]
  induction tokens with
  | nil => rfl
  | cons token tokens ih =>
      cases token with
      | literal l =>
          rw [List.countP_cons_of_pos rfl, ih]
          rfl
      | _ => exact (List.countP_cons_of_neg Bool.false_ne_true).trans ih

end Token

namespace Tree

/-- A literal alone is written as the text of its value. -/
theorem result_literal (r : Renderer) (hr : r.handlers = {}) (l : Literal)
    (hdepth : 0 < r.options.maxDepth) : ((expr (.literal l)).report (r.inMode false)).result =
      .ok ⟨(Parameter.ofLiteral l).sql r.options.escaping, []⟩ := by
  have hlimit : ¬ (r.inMode false).options.maxDepth < 1 := Nat.not_lt.2 hdepth
  have hdefects : (expr (.literal l)).defects (r.inMode false).options.maxDepth = [] := by
    rw [defects, sites, Expr.sites, Site.nest, List.filterMap_cons, Site.defect?, if_neg hlimit]
    rfl
  have hsql : (({} : Context).put (r.inMode false).options (.literal l)).sql =
      (Parameter.ofLiteral l).sql r.options.escaping := by
    have hmode : ¬ (r.inMode false).options.paramsMode = true := Bool.false_ne_true
    rw [Context.put, Context.literal, if_neg hmode, Context.sql_write, Parameter.sql,
      Parameter.toLiteral_ofLiteral]
    exact String.empty_append
  rw [result_of_nil (r := r.inMode false) hr hdefects, ← hsql]
  rfl

/-- Without handlers both modes fail with the same error, or neither fails. Then nothing is bound
where literals are written, and where they are bound, the texts around the placeholders are the same
as those around the texts of the bound values in the other mode. That text of a value is what the
rendering of its literal alone results in. -/
theorem results_woven (r : Renderer) (hr : r.handlers = {}) (t : Tree) :
    ((∃ e, (t.report (r.inMode false)).result = .error (.error e) ∧
        (t.report (r.inMode true)).result = .error (.error e)) ∨
      ∃ (written bound : Rendered) (first : String) (rest : List String),
        (t.report (r.inMode false)).result = .ok written ∧
        (t.report (r.inMode true)).result = .ok bound ∧
        written.params = [] ∧ rest.length = bound.params.length ∧
        bound.sql = Text.woven first
          ((List.range bound.params.length).map fun i => s!"${i + 1}") rest ∧
        written.sql = Text.woven first (bound.params.map (Parameter.sql r.options.escaping)) rest) ∧
      ∀ l, 0 < r.options.maxDepth → ((expr (.literal l)).report (r.inMode false)).result =
        .ok ⟨(Parameter.ofLiteral l).sql r.options.escaping, []⟩ := by
  refine ⟨?_, result_literal r hr⟩
  -- Both modes look for the same defects, and where there are none they put the same tokens.
  cases hd : t.defects r.options.maxDepth with
  | cons e ds =>
      exact .inl ⟨e, result_of_cons (r := r.inMode false) hr hd,
        result_of_cons (r := r.inMode true) hr hd⟩
  | nil =>
      have hplain := result_of_nil (r := r.inMode false) hr hd
      have hbound := result_of_nil (r := r.inMode true) hr hd
      let tokens := Script.tokens t.script
      let gaps := Text.gaps (tokens.map Token.fixed?)
      have hparams : (({} : Context).putAll (r.inMode true).options tokens).params.toList =
          (tokens.filterMap Token.literal?).map Parameter.ofLiteral :=
        Context.params_putAll rfl {} tokens
      have hnone : (({} : Context).putAll (r.inMode false).options tokens).params = #[] :=
        Context.params_putAll_of_plain rfl {} tokens
      refine .inr ⟨_, _, gaps.1, gaps.2, hplain, hbound, congrArg Array.toList hnone, ?_, ?_, ?_⟩
      · rw [Renderer.finish, hparams, List.length_map]
        exact Token.length_gaps_fixed tokens
      · rw [Renderer.finish, hparams, List.length_map, Context.sql_putAll_fresh, Token.join_pieces,
          Token.holes_of_bound 0 tokens rfl, Text.fill, List.range'_eq_map_range, List.map_map]
        simp only [Function.comp_def, Nat.zero_add, Nat.add_comm 1]
        rfl
      · have htexts : ((tokens.filterMap Token.literal?).map Parameter.ofLiteral).map
            (Parameter.sql r.options.escaping) =
              (tokens.filterMap Token.literal?).map (Literal.sql r.options.escaping) := by
          rw [List.map_map]
          apply List.map_congr_left
          intro l _
          rw [Function.comp_apply, Parameter.sql, Parameter.toLiteral_ofLiteral]
        rw [Renderer.finish, Renderer.finish, hparams, htexts, Context.sql_putAll_fresh,
          Token.join_pieces, Token.holes_of_plain 0 tokens rfl]
        rfl

/-- An identifier that looks like a placeholder is the same text in both modes. -/
theorem results_woven_equation :
    ({} : Renderer).handlers = {} ∧ ∃ written bound first rest,
      ((expr (.binary (.ident "$1") .eq (.literal (.string "a")))).report
        (({} : Renderer).inMode false)).result = .ok written ∧
      ((expr (.binary (.ident "$1") .eq (.literal (.string "a")))).report
        (({} : Renderer).inMode true)).result = .ok bound ∧
      bound.params = [.string "a"] ∧
      bound.sql = Text.woven first ["$1"] rest ∧ written.sql = Text.woven first ["'a'"] rest := by
  obtain ⟨⟨e, h, -⟩ | ⟨written, bound, first, rest, hwritten, hbound, -, -, hb, hw⟩, -⟩ :=
    results_woven {} rfl (expr (.binary (.ident "$1") .eq (.literal (.string "a"))))
  · cases h
  · have hparams : bound.params = [.string "a"] := by
      cases hbound
      rfl
    rw [hparams] at hb hw
    exact ⟨rfl, written, bound, first, rest, hwritten, hbound, hparams, hb, hw⟩

end Tree

end TypedSql
