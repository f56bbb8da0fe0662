import Mathlib.Data.List.Forall2
import TypedSql.Proofs.Act
import TypedSql.Proofs.Written

/-! What any run leaves behind, whatever the handlers do, and whether it ends well or in a failure.
Nothing is taken back: the context has all that it had, then the tokens of the run as pieces, and the
values of the literals among them. So the placeholders count on without a gap. -/

namespace TypedSql

namespace Context

/-- The context `c'` has what `c` has and then the tokens, at whatever depth. -/
structure Gains (o : Options) (c : Context) (tokens : List Token) (c' : Context) : Prop where
  pieces : c'.pieces.toList = c.pieces.toList ++ Token.pieces o c.params.size tokens
  params : c'.params.toList = c.params.toList ++ tokens.filterMap (Token.value? o)

namespace Gains

variable {o : Options} {c c₁ c₂ : Context}

theorem refl (o : Options) (c : Context) : c.Gains o [] c :=
  ⟨(List.append_nil _).symm, (List.append_nil _).symm⟩

theorem enter (o : Options) (c : Context) : c.Gains o [] c.enter :=
  ⟨(List.append_nil _).symm, (List.append_nil _).symm⟩

theorem put (o : Options) (c : Context) (token : Token) : c.Gains o [token] (c.put o token) :=
  ⟨pieces_putAll o c [token], values_putAll o c [token]⟩

theorem trans {a b : List Token} (h : c.Gains o a c₁) (h' : c₁.Gains o b c₂) :
    c.Gains o (a ++ b) c₂ := by
  have hsize : c₁.params.size = c.params.size + (a.filterMap (Token.value? o)).length := by
    rw [← Array.length_toList, h.params, List.length_append, Array.length_toList]
  constructor
  · rw [h'.pieces, h.pieces, hsize, Token.pieces_append, List.append_assoc]
  · rw [h'.params, h.params, List.filterMap_append, List.append_assoc]

end Gains

end Context

/-- The caller leaves contexts that have gained the tokens of its acts. -/
def Caller.Gains (o : Options) (call : Caller) (inside : CallActs) : Prop :=
  ∀ family node c c', (call family node c).context? = some c' →
    c.Gains o ((inside family node c).filterMap Act.token?) c'

namespace Outcome

variable {o : Options} {c c' : Context}

/-- Going on from an outcome that is done gains what is gained by then and after that. -/
theorem gains_andThen {outcome : Outcome} {next : Context → Outcome} {a : List Act}
    {b : Context → List Act}
    (h : ∀ c₁, outcome.context? = some c₁ → c.Gains o (a.filterMap Act.token?) c₁)
    (hnext : ∀ c₁, (next c₁).context? = some c' →
      c₁.Gains o ((b c₁).filterMap Act.token?) c')
    (hc : (outcome.andThen next).context? = some c') :
    c.Gains o ((a ++ outcome.ifDone b).filterMap Act.token?) c' := by
  cases outcome with
  | done c₁ =>
      rw [List.filterMap_append]
      exact (h c₁ rfl).trans (hnext c₁ hc)
  | failed e c₁ =>
      rw [ifDone_failed, List.append_nil]
      exact h c' hc
  | unfinished => cases hc

/-- Going on from an outcome that is failed does as well. -/
theorem gains_orElse {outcome : Outcome} {next : RenderError → Context → Outcome} {a : List Act}
    {b : RenderError → Context → List Act}
    (h : ∀ c₁, outcome.context? = some c₁ → c.Gains o (a.filterMap Act.token?) c₁)
    (hnext : ∀ e c₁, (next e c₁).context? = some c' →
      c₁.Gains o ((b e c₁).filterMap Act.token?) c')
    (hc : (outcome.orElse next).context? = some c') :
    c.Gains o ((a ++ outcome.ifFailed b).filterMap Act.token?) c' := by
  cases outcome with
  | done c₁ =>
      rw [ifFailed_done, List.append_nil]
      exact h c' hc
  | failed e c₁ =>
      rw [List.filterMap_append]
      exact (h c₁ rfl).trans (hnext e c₁ hc)
  | unfinished => cases hc

/-- The guard around a body is no token. -/
theorem gains_leave {outcome : Outcome} {a : List Act}
    (h : ∀ c₁, outcome.context? = some c₁ → c.enter.Gains o (a.filterMap Act.token?) c₁)
    (hc : outcome.leave.context? = some c') :
    c.Gains o ((.enter c.enter.depth :: (a ++ outcome.closing)).filterMap Act.token?) c' := by
  have htokens : (Act.enter c.enter.depth :: (a ++ outcome.closing)).filterMap Act.token? =
      a.filterMap Act.token? := by
    rw [List.filterMap_cons_none (by rfl), List.filterMap_append,
      filterMap_closing fun _ => rfl, List.append_nil]
  rw [htokens]
  cases outcome with
  | done c₁ =>
      cases hc
      exact ⟨(h c₁ rfl).pieces, (h c₁ rfl).params⟩
  | failed e c₁ =>
      cases hc
      exact ⟨(h c₁ rfl).pieces, (h c₁ rfl).params⟩
  | unfinished => cases hc

end Outcome

mutual

theorem Step.run_gains {o : Options} {call : Caller} {inside : CallActs}
    (hcall : call.Gains o inside) (step : Step) (c c' : Context)
    (h : (step.run o call c).context? = some c') :
    c.Gains o ((step.acts o call inside c).filterMap Act.token?) c' := by
  cases step with
  | text s =>
      rw [Step.run] at h
      cases h
      exact .put o c (.text s)
  | ident i =>
      rw [Step.run] at h
      cases h
      exact .put o c (.ident i)
  | literal l =>
      rw [Step.run] at h
      cases h
      exact .put o c (.literal l)
  | guarded body =>
      rw [Step.run] at h
      rw [Step.acts]
      by_cases hlimit : o.maxDepth < c.enter.depth
      · rw [if_pos hlimit] at h ⊢
        cases h
        exact .enter o c
      · rw [if_neg hlimit] at h ⊢
        exact Outcome.gains_leave (fun c₁ hc₁ => Script.run_gains hcall body c.enter c₁ hc₁) h
  | custom family node =>
      rw [Step.run] at h
      rw [Step.acts]
      exact hcall family node c c' h
  | fail e =>
      rw [Step.run] at h
      cases h
      exact .refl o c
  | attempt body rescue =>
      rw [Step.run_attempt] at h
      rw [Step.acts]
      exact Outcome.gains_orElse (fun c₁ hc₁ => Script.run_gains hcall body c c₁ hc₁)
        (fun e c₁ hc₁ => Script.run_gains hcall (rescue e) c₁ c' hc₁) h
  | inspect next =>
      rw [Step.run] at h
      rw [Step.acts]
      exact Script.run_gains hcall (next ⟨o, c.sql⟩) c c' h

theorem Script.run_gains {o : Options} {call : Caller} {inside : CallActs}
    (hcall : call.Gains o inside) (s : List Step) (c c' : Context)
    (h : (Script.run o call c s).context? = some c') :
    c.Gains o ((Script.acts o call inside c s).filterMap Act.token?) c' := by
  cases s with
  | nil =>
      rw [Script.run_nil] at h
      cases h
      exact .refl o c
  | cons step steps =>
      rw [Script.run_cons] at h
      rw [Script.acts]
      exact Outcome.gains_andThen (fun c₁ hc₁ => Step.run_gains hcall step c c₁ hc₁)
        (fun c₁ hc₁ => Script.run_gains hcall steps c₁ c' hc₁) h

end

/-- Handlers only put tokens, because all that they can do is in their scripts. -/
theorem Registry.gains (r : Registry) (o : Options) (calls : Nat) :
    (r.call o calls).Gains o (r.acts o calls) := by
  refine r.call_induction o (P := fun _ _ _ c outcome acts => ∀ c', outcome.context? = some c' →
    Context.Gains o c (acts.filterMap Act.token?) c') ?_ ?_ ?_ calls
  · intro _ family node c _ c' h
    cases h
    exact .refl o c
  · intro family node c _ _ c' h
    cases h
  · intro calls ih family node c handler _ c' h
    rw [List.filterMap_cons_none (by rfl)]
    exact Script.run_gains ih (handler node) c c' h

/-- The number of a placeholder. -/
def Piece.index? : Piece → Option Nat
  | placeholder index => some index
  | raw _ => none

namespace Token

/-- The piece shows the token. A bound literal is shown by a placeholder that counts up to its value
among all values. -/
def Shown (o : Options) (params : List Parameter) : Token → Piece → Prop
  | text s, piece => piece = .raw s
  | ident i, piece => piece = .raw (Text.quoted '"' i)
  | literal l, piece =>
    if o.paramsMode then
      ∃ i, piece = .placeholder (i + 1) ∧ params[i]? = some (.ofLiteral l)
    else piece = .raw (l.sql o.escaping)

variable {o : Options} (tokens : List Token)

theorem index_pieces (count : Nat) : (pieces o count tokens).filterMap Piece.index? =
    List.range' (count + 1) (tokens.filterMap (value? o)).length := by
  induction tokens generalizing count with
  | nil => rfl
  | cons token tokens ih =>
      rw [pieces, List.filterMap_cons, List.filterMap_cons, ih]
      cases token with
      | literal l =>
          rw [piece, value?]
          cases o.paramsMode <;> rfl
      | _ => rfl

theorem shown_pieces (before : List Parameter) : List.Forall₂
    (Shown o (before ++ tokens.filterMap (value? o))) tokens (pieces o before.length tokens) := by
  induction tokens generalizing before with
  | nil => exact .nil
  | cons token tokens ih =>
      -- The value of the first token joins those before the rest.
      have hparams : before ++ (token :: tokens).filterMap (value? o) =
          before ++ (token.value? o).toList ++ tokens.filterMap (value? o) := by
        rw [List.filterMap_cons, List.append_assoc]
        cases token.value? o <;> rfl
      have hrest := ih (before ++ (token.value? o).toList)
      rw [List.length_append] at hrest
      rw [hparams, pieces]
      refine .cons ?_ hrest
      cases token with
      | text s => rfl
      | ident i => rfl
      | literal l =>
          rw [Shown, piece, value?]
          cases o.paramsMode with
          | false => rfl
          | true =>
              refine ⟨before.length, rfl, ?_⟩
              simp

end Token

namespace Renderer

/-- The tokens that a run puts. -/
def tokens (r : Renderer) (c : Context) (s : Script) : List Token :=
  (r.acts c s).filterMap Act.token?

/-- A run on any context, whether it fails or not and whatever the handlers do on the way, only adds
pieces and values. There is one new piece for each token that the run puts; the placeholders among
them count on from the values before, one for each new value; and each stands for the literal whose
value it counts up to. Where literals are not bound there are no new values. -/
theorem run_grows (r : Renderer) (s : Script) (c c' : Context)
    (h : (r.run c s).context? = some c') :
    ∃ (pieces : List Piece) (values : List Parameter),
      c'.pieces.toList = c.pieces.toList ++ pieces ∧ c'.sql = c.sql ++ Piece.join pieces ∧
      c'.params.toList = c.params.toList ++ values ∧
      pieces.filterMap Piece.index? = List.range' (c.params.size + 1) values.length ∧
      List.Forall₂ (Token.Shown r.options c'.params.toList) (r.tokens c s) pieces ∧
      (r.options.paramsMode = false → values = []) := by
  have hgains : c.Gains r.options (r.tokens c s) c' :=
    Script.run_gains (r.handlers.gains r.options r.callLimit) s c c' h
  refine ⟨_, _, hgains.pieces, ?_, hgains.params, Token.index_pieces _ _, ?_, ?_⟩
  · rw [Context.sql_eq_join, hgains.pieces, Piece.join_append, Context.sql_eq_join]
  · rw [hgains.params, ← Array.length_toList]
    exact Token.shown_pieces _ _
  · intro hmode
    rw [List.filterMap_eq_nil_iff]
    exact fun token _ => token.value?_of_plain hmode

/-- What a rescued part has bound stays, and the next placeholder counts on from it. -/
theorem run_grows_rescued :
    let retry : Handler := fun _ =>
      [.attempt [.literal (.integer 1), .fail .formatFailure] fun _ => [.literal .null]]
    let r : Renderer := { options := { paramsMode := true }, handlers := .ofList [("retry", retry)] }
    let c := ({} : Context).bind (.bool true)
    let s := (Expr.custom ⟨"retry", 0, .unit⟩).script
    ∃ c', (r.run c s).context? = some c' ∧ ∃ (pieces : List Piece) (values : List Parameter),
      c'.sql = c.sql ++ Piece.join pieces ∧ c'.params.toList = .bool true :: values ∧
        values = [.integer 1, .null] ∧ pieces.filterMap Piece.index? = [2, 3] := by
  intro retry r c s
  obtain ⟨c', hc'⟩ : ∃ c', (r.run c s).context? = some c' := ⟨_, rfl⟩
  obtain ⟨pieces, values, -, hsql, hparams, hindex, -, -⟩ := run_grows r s c c' hc'
  have hvalues : values = [.integer 1, .null] := by
    cases hc'
    exact (List.cons_inj_right _).1 hparams.symm
  rw [hvalues] at hindex
  exact ⟨c', hc', pieces, values, hsql, hparams, hvalues, hindex⟩

end Renderer

end TypedSql
