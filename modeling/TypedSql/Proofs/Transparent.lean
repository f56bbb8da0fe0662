import TypedSql.Proofs.Unwrap.Script
import TypedSql.Proofs.Limit
import TypedSql.Proofs.Termination

/-! Wrappers of a kind whose handler does nothing but render what they carry. Such a wrapper takes a
level and a call, and else nothing shows whether it is there: the run of a tree and the run of the
tree without its wrappers write the same tokens, each from wherever it has levels enough. -/

namespace TypedSql

mutual

/-- The step has nothing to do with dialects: it calls no handler, and does nothing that only
handlers do. -/
def Step.Native : Step → Prop
  | .guarded body => Script.Native body
  | .custom _ _ => False
  | .attempt _ _ => False
  | .inspect _ => False
  | _ => True

def Script.Native : List Step → Prop
  | [] => True
  | step :: steps => step.Native ∧ Script.Native steps

end

theorem Script.native_append {s t : Script} : Native (s ++ t) ↔ Native s ∧ Native t := by
  induction s with
  | nil => exact (and_iff_right trivial).symm
  | cons step steps ih => exact (and_congr_right' ih).trans and_assoc.symm

theorem Layout.native {sites : List Site} {s : Script} (h : Layout sites s)
    (hnodes : ∀ family n, Site.node family n ∉ sites) : Script.Native s := by
  induction h with
  | nil => exact trivial
  | text _ _ ih => exact ⟨trivial, ih hnodes⟩
  | operator _ ih | ident _ _ ih | literal _ _ ih | short _ ih | unscaled _ ih =>
      exact ⟨trivial, ih fun family n hn => hnodes family n (List.mem_cons_of_mem _ hn)⟩
  | guarded _ _ _ ihbody ih =>
      constructor
      · exact ihbody fun family n hn =>
          hnodes family n (List.mem_append_left _ (Site.node_mem_nest hn))
      · exact ih fun family n hn => hnodes family n (List.mem_append_right _ hn)
  | node _ _ => exact absurd List.mem_cons_self (hnodes _ _)

/-! ### Where a script runs to its end -/

/-- Wherever so many levels are left, the script runs to its end and writes the tokens. -/
def Script.Completes (o : Options) (call : Caller) (s : Script) (tokens : List Token)
    (levels : Nat) : Prop :=
  ∀ c : Context, levels ≤ o.maxDepth - c.depth → run o call c s = .done (c.putAll o tokens)

namespace Script.Completes

variable {o : Options} {call : Caller} {s t : Script} {a b : List Token} {levels : Nat}

theorem nil : Completes o call [] [] levels :=
  fun c _ => run_nil o call c

theorem mono {more : Nat} (h : Completes o call s a levels) (hle : levels ≤ more) :
    Completes o call s a more :=
  fun c hc => h c (Nat.le_trans hle hc)

theorem append (hs : Completes o call s a levels) (ht : Completes o call t b levels) :
    Completes o call (s ++ t) (a ++ b) levels := by
  intro c hc
  rw [run_append, hs c hc, Context.putAll_append]
  exact ht _ (by rwa [Context.putAll_depth])

theorem guarded (h : Completes o call s a levels) :
    Completes o call [.guarded s] a (levels + 1) := by
  intro c hc
  have hlimit : c.depth < o.maxDepth := by omega
  have hbody : levels ≤ o.maxDepth - c.enter.depth := Nat.le_sub_one_of_lt hc
  rw [run_singleton, Step.run_guarded_eq_done]
  exact ⟨hlimit, _, h c.enter hbody, c.leave_putAll_enter o a⟩

end Script.Completes

/-- A step that opens no guard does the same under every limit and with every caller. -/
theorem Step.Native.run_done {step : Step} (h : step.Native) (hflat : ∀ body, step ≠ .guarded body)
    {o : Options} {call : Caller} {c c' : Context} (hrun : step.run o call c = .done c')
    (limit : Nat) (call' : Caller) (levels : Nat) :
    c' = c.putAll o step.tokens ∧
      Script.Completes (o.withLimit limit) call' [step] step.tokens levels := by
  have hcompletes (token : Token) (hdone : ∀ call d, step.run (o.withLimit limit) call d =
      .done (d.put (o.withLimit limit) token)) :
      Script.Completes (o.withLimit limit) call' [step] [token] levels := by
    intro d _
    rw [Script.run_singleton, hdone]
    rfl
  cases step with
  | text w =>
      rw [Step.run] at hrun
      cases hrun
      exact ⟨rfl, hcompletes (.text w) fun _ _ => by rw [Step.run]; rfl⟩
  | ident i =>
      rw [Step.run] at hrun
      cases hrun
      exact ⟨rfl, hcompletes (.ident i) fun _ _ => by rw [Step.run]; rfl⟩
  | literal l =>
      rw [Step.run] at hrun
      cases hrun
      exact ⟨rfl, hcompletes (.literal l) fun _ _ => by rw [Step.run]; rfl⟩
  | guarded body => exact absurd rfl (hflat body)
  | fail e =>
      rw [Step.run] at hrun
      cases hrun
  | _ => exact h.elim

/-! ### Handlers that pass through -/

/-- The handler of the kind renders the expression that a node carries, and does nothing else. What
it does with nodes that carry something else is left open. -/
def Registry.PassesThrough (r : Registry) (kind : String) : Prop :=
  ∃ handler, r.find? kind = some handler ∧
    ∀ n e, n.kind = kind → n.payload = .expr e → handler n = e.script

namespace Registry.PassesThrough

variable {r : Registry} {kind : String} {n : Extension} {e : Expr}

/-- The call of a wrapper is the run of what it carries, with one call less. -/
theorem call_succ (h : r.PassesThrough kind) (hkind : n.kind = kind)
    (hpayload : n.payload = .expr e) (o : Options) (calls : Nat) (family : String) (c : Context) :
    r.call o (calls + 1) family n c = Script.run o (r.call o calls) c e.script := by
  obtain ⟨handler, hfind, hhandler⟩ := h
  rw [call_found o family c calls (by rw [hkind, hfind]), hhandler n e hkind hpayload]

theorem call_eq_done (h : r.PassesThrough kind) (hkind : n.kind = kind)
    (hpayload : n.payload = .expr e) {o : Options} {calls : Nat} {family : String}
    {c c' : Context} (hcall : r.call o calls family n c = .done c') :
    ∃ fewer, Script.run o (r.call o fewer) c e.script = .done c' := by
  cases calls with
  | zero =>
      obtain ⟨handler, hfind, -⟩ := h
      rw [call_exhausted o family c (by rw [hkind, hfind])] at hcall
      cases hcall
  | succ fewer => exact ⟨fewer, by rw [← h.call_succ hkind hpayload, hcall]⟩

/-- A wrapper takes one level and one call more than what it carries. -/
theorem completes (h : r.PassesThrough kind) (hkind : n.kind = kind)
    (hpayload : n.payload = .expr e) {o : Options} {calls : Nat} {tokens : List Token}
    {levels : Nat} (he : Script.Completes o (r.call o calls) e.script tokens levels) :
    Script.Completes o (r.call o (calls + 1)) [.guarded [.custom "Expr" n]] tokens
      (levels + 1) := by
  refine .guarded fun c hc => ?_
  rw [Script.run_singleton, Step.run, h.call_succ hkind hpayload]
  exact he c hc

end Registry.PassesThrough

namespace Script.Unwraps

variable {r : Registry} {kind : String} {s s' : Script} {o : Options}

/-- Where the script with the wrappers runs to its end, the one without them does so too, with
whatever caller and with no more levels, and what they write is the same. -/
theorem completes_unwrapped (hr : r.PassesThrough kind) (h : Unwraps kind s s') (hs' : Native s')
    {calls : Nat} {c c₁ : Context} (hrun : run o (r.call o calls) c s = .done c₁) :
    c₁ = c.putAll o (tokens s') ∧
      ∀ call, Completes o call s' (tokens s') (o.maxDepth - c.depth) := by
  -- For all numbers of calls, since what a wrapper carries runs with one call less.
  induction h generalizing calls c c₁ with
  | nil =>
      rw [run_nil] at hrun
      cases hrun
      exact ⟨rfl, fun _ => .nil⟩
  | append _ _ iha ihb =>
      obtain ⟨ha, hb⟩ := native_append.1 hs'
      rw [run_append, Outcome.andThen_eq_done] at hrun
      obtain ⟨c₂, hfirst, hrest⟩ := hrun
      obtain ⟨rfl, hfirsts⟩ := iha ha hfirst
      obtain ⟨rfl, hrests⟩ := ihb hb hrest
      rw [Context.putAll_depth] at hrests
      rw [tokens_append, Context.putAll_append]
      exact ⟨rfl, fun call => (hfirsts call).append (hrests call)⟩
  | same step hflat =>
      rw [run_singleton] at hrun
      rw [tokens_singleton]
      have hdone := hs'.1.run_done hflat hrun o.maxDepth
      exact ⟨(hdone (r.call o calls) 0).1, fun call => (hdone call _).2⟩
  | @guarded body body' _ ih =>
      rw [run_singleton, Step.run_guarded_eq_done] at hrun
      obtain ⟨hlimit, c₂, hbody, rfl⟩ := hrun
      obtain ⟨rfl, hcompletes⟩ := ih hs'.1 hbody
      have hlevels : o.maxDepth - c.enter.depth + 1 = o.maxDepth - c.depth :=
        Nat.succ_pred_eq_of_pos (Nat.sub_pos_of_lt hlimit)
      rw [tokens_singleton, Step.tokens, Context.leave_putAll_enter, ← hlevels]
      exact ⟨rfl, fun call => (hcompletes call).guarded⟩
  | wrapped hkind hpayload _ ih =>
      rw [run_singleton, Step.run_guarded_eq_done] at hrun
      obtain ⟨-, c₂, hbody, rfl⟩ := hrun
      rw [run_singleton, Step.run] at hbody
      obtain ⟨fewer, he⟩ := hr.call_eq_done hkind hpayload hbody
      -- It has run one level deeper, so the levels that are left here are more than enough.
      obtain ⟨rfl, hcompletes⟩ := ih hs' he
      rw [Context.leave_putAll_enter]
      exact ⟨rfl, fun call => (hcompletes call).mono (Nat.sub_le_sub_left (Nat.le_succ _) _)⟩

/-- Where the script without the wrappers runs to its end, the one with them does so too, given some
more levels and so many calls, and what they write is the same. -/
theorem completes_wrapped (hr : r.PassesThrough kind) (h : Unwraps kind s s') (hs' : Native s') :
    ∃ extra, ∀ {o : Options} {calls : Nat} {c c₁ : Context},
      run o (r.call o calls) c s' = .done c₁ → ∀ limit more, extra ≤ more →
        Completes (o.withLimit limit) (r.call (o.withLimit limit) more) s (tokens s')
          (o.maxDepth - c.depth + extra) := by
  induction h with
  | nil => exact ⟨0, fun _ _ _ _ => .nil⟩
  | append _ _ iha ihb =>
      obtain ⟨ha, hb⟩ := native_append.1 hs'
      obtain ⟨extra, hfirsts⟩ := iha ha
      obtain ⟨extra', hrests⟩ := ihb hb
      refine ⟨max extra extra', ?_⟩
      intro o calls c c₁ hrun limit more hmore
      obtain ⟨hle, hle'⟩ := Nat.max_le.1 hmore
      rw [run_append, Outcome.andThen_eq_done] at hrun
      obtain ⟨c₂, hfirst, hrest⟩ := hrun
      obtain ⟨rfl, -⟩ := (refl kind _).completes_unwrapped hr ha hfirst
      have hcompletes := hfirsts hfirst limit more hle
      have hcompletes' := hrests hrest limit more hle'
      rw [Context.putAll_depth] at hcompletes'
      rw [tokens_append]
      refine (hcompletes.mono ?_).append (hcompletes'.mono ?_)
      · exact Nat.add_le_add_left (Nat.le_max_left _ _) _
      · exact Nat.add_le_add_left (Nat.le_max_right _ _) _
  | same step hflat =>
      refine ⟨0, ?_⟩
      intro o calls c c₁ hrun limit more _
      rw [run_singleton] at hrun
      rw [tokens_singleton]
      exact (hs'.1.run_done hflat hrun limit _ _).2
  | guarded _ ih =>
      obtain ⟨extra, hcompletes⟩ := ih hs'.1
      refine ⟨extra, ?_⟩
      intro o calls c c₁ hrun limit more hmore
      rw [run_singleton, Step.run_guarded_eq_done] at hrun
      obtain ⟨hlimit, c₂, hbody, -⟩ := hrun
      have hlevels : o.maxDepth - c.enter.depth + extra + 1 = o.maxDepth - c.depth + extra := by
        change o.maxDepth - (c.depth + 1) + extra + 1 = _
        omega
      rw [tokens_singleton, Step.tokens, ← hlevels]
      exact (hcompletes hbody limit more hmore).guarded
  | wrapped hkind hpayload _ ih =>
      -- The guard and the call of the wrapper come on top of what it carries.
      obtain ⟨extra, hcompletes⟩ := ih hs'
      refine ⟨extra + 1, ?_⟩
      intro o calls c c₁ hrun limit more hmore
      obtain ⟨fewer, rfl⟩ := Nat.exists_eq_add_of_le' hmore
      exact hr.completes hkind hpayload (hcompletes hrun limit _ (Nat.le_add_left _ _))

end Script.Unwraps

namespace Tree

/-- Handlers that pass through are transparent. Where wrappers are all that dialects bring into a
tree, so that no node of a dialect is left without them, and the handler of the wrappers passes
through, the tree with its wrappers taken off renders to the same text and the same values under
every limit that the tree renders under. In the other direction the tree needs some more levels and
calls than that, the same number under every limit. -/
theorem result_unwrap (r : Renderer) (kind : String) (hr : r.handlers.PassesThrough kind) (t : Tree)
    (ht : ∀ family n, Site.node family n ∉ (t.unwrap kind).sites) :
    (∀ limit a, (t.report (r.withLimit limit)).result = .ok a →
        ((t.unwrap kind).report (r.withLimit limit)).result = .ok a) ∧
      ∃ extra, ∀ limit a, ((t.unwrap kind).report (r.withLimit limit)).result = .ok a →
        ∀ limit' calls, limit + extra ≤ limit' → extra ≤ calls →
          (t.report ((r.withLimit limit').allowing calls)).result = .ok a := by
  have hnative := (t.unwrap kind).layout.native ht
  simp only [report_result, Renderer.render_eq_ok]
  constructor
  · rintro limit a ⟨c, hrun, rfl⟩
    obtain ⟨rfl, hcompletes⟩ := (t.unwraps kind).completes_unwrapped hr hnative hrun
    exact ⟨_, hcompletes _ {} (Nat.le_refl _), rfl⟩
  · obtain ⟨extra, hwrapped⟩ := (t.unwraps kind).completes_wrapped hr hnative
    refine ⟨extra, ?_⟩
    rintro limit a ⟨c, hrun, rfl⟩ limit' calls hlimit hcalls
    obtain ⟨rfl, -⟩ := (Script.Unwraps.refl kind _).completes_unwrapped hr hnative hrun
    exact ⟨_, hwrapped hrun limit' calls hcalls {} hlimit, rfl⟩

/-- A literal in a wrapper and another one in two wrappers, inside of brackets: three levels are
enough without the wrappers, and five with them. -/
theorem result_unwrap_nested :
    let pass (identity : Nat) (e : Expr) : Expr := .custom ⟨"pass", identity, .expr e⟩
    let r : Renderer :=
      { options := { paramsMode := true }
        handlers := ({} : Registry).register "pass" Extension.exprScript }
    let t := expr (.binary (pass 0 (.literal (.integer 1))) .add
      (.paren (pass 1 (pass 2 (.literal (.string "a"))))))
    let result : Rendered := ⟨"$1 + ($2)", [.integer 1, .string "a"]⟩
    r.handlers.PassesThrough "pass" ∧
      (∀ family n, Site.node family n ∉ (t.unwrap "pass").sites) ∧
      (t.report (r.withLimit 5)).result = .ok result ∧
      ((t.unwrap "pass").report (r.withLimit 5)).result = .ok result ∧
      (t.report (r.withLimit 3)).result = .error (.error (.recursionLimitExceeded 3)) ∧
      ((t.unwrap "pass").report (r.withLimit 3)).result = .ok result ∧
      ∃ limit, 3 ≤ limit ∧ ∃ calls,
        (t.report ((r.withLimit limit).allowing calls)).result = .ok result := by
  intro pass r t result
  have hr : r.handlers.PassesThrough "pass" := by
    refine ⟨Extension.exprScript, rfl, ?_⟩
    intro n e _ he
    rw [Extension.exprScript, he]
  have ht (family : String) (n : Extension) : Site.node family n ∉ (t.unwrap "pass").sites := by
    have hsites : (t.unwrap "pass").sites = [.guarded 1, .guarded 2, .literal (.integer 1),
      .guarded 2, .guarded 3, .literal (.string "a")] := rfl
    rw [hsites]
    simp
  -- Only in closed terms the numbers of placeholders are evaluated.
  have hwrapped : (t.report (r.withLimit 5)).result = .ok result := by
    subst result t r pass
    exact rfl
  have hunwrapped : ((t.unwrap "pass").report (r.withLimit 3)).result = .ok result := by
    subst result t r pass
    exact rfl
  obtain ⟨hall, extra, hmore⟩ := result_unwrap r "pass" hr t ht
  refine ⟨hr, ht, hwrapped, hall 5 result hwrapped, rfl, hunwrapped, 3 + extra,
    Nat.le_add_right 3 extra, extra, ?_⟩
  exact hmore 3 result hunwrapped (3 + extra) extra (Nat.le_refl _) (Nat.le_refl _)

end Tree

end TypedSql
