import TypedSql.Proofs.Defect
import TypedSql.Proofs.Growth

/-! The depth of a context. A guard raises it and lowers it again, but where the limit refuses a guard
it stays raised. So a run leaves the depth that it found and one more level for each refusal, however
it ends and whatever it recovers from in between. -/

namespace TypedSql

namespace Act

def isRefusal : Act → Bool
  | refuse => true
  | _ => false

/-- How many guards are refused. -/
def refusals (acts : List Act) : Nat :=
  acts.countP isRefusal

theorem refusals_append (a b : List Act) : refusals (a ++ b) = refusals a + refusals b :=
  List.countP_append

/-- A body starts at a positive depth within the limit, and no guard is closed at depth zero. -/
def InRange (limit : Nat) : Act → Prop
  | enter depth => 0 < depth ∧ depth ≤ limit
  | leave depth => 0 < depth
  | _ => True

end Act

namespace Outcome

/-- The acts of a run from a context account for the depth that it leaves. -/
structure Balances (o : Options) (c : Context) (acts : List Act) (outcome : Outcome) : Prop where
  depth : ∀ c', outcome.context? = some c' → c'.depth = c.depth + Act.refusals acts
  range : ∀ act ∈ acts, act.InRange o.maxDepth

/-- No run ends at a lower depth than the one that it started at. -/
theorem Balances.le {o : Options} {c c' : Context} {acts : List Act} {outcome : Outcome}
    (h : outcome.Balances o c acts) (hc : outcome.context? = some c') : c.depth ≤ c'.depth := by
  rw [h.depth c' hc]
  exact Nat.le_add_right _ _

variable {o : Options} {c : Context} {outcome : Outcome} {a : List Act}

theorem balances_put (token : Token) : (done (c.put o token)).Balances o c [.put token] := by
  refine ⟨?_, List.forall_mem_singleton.2 trivial⟩
  intro c' hc'
  cases hc'
  exact c.put_depth o token

theorem balances_andThen {next : Context → Outcome} {b : Context → List Act}
    (h : outcome.Balances o c a) (hnext : ∀ c₁, (next c₁).Balances o c₁ (b c₁)) :
    (outcome.andThen next).Balances o c (a ++ outcome.ifDone b) := by
  cases outcome with
  | done c₁ =>
      refine ⟨?_, List.forall_mem_append.2 ⟨h.range, (hnext c₁).range⟩⟩
      intro c' hc'
      have hfirst : c₁.depth = c.depth + Act.refusals a := h.depth c₁ rfl
      have hrest : c'.depth = c₁.depth + Act.refusals (b c₁) := (hnext c₁).depth c' hc'
      rw [hrest, hfirst, Act.refusals_append, Nat.add_assoc]
      rfl
  | failed e c₁ =>
      rw [ifDone_failed, List.append_nil]
      exact h
  | unfinished =>
      rw [show unfinished.ifDone b = [] from rfl, List.append_nil]
      exact h

theorem balances_orElse {next : RenderError → Context → Outcome}
    {b : RenderError → Context → List Act} (h : outcome.Balances o c a)
    (hnext : ∀ e c₁, (next e c₁).Balances o c₁ (b e c₁)) :
    (outcome.orElse next).Balances o c (a ++ outcome.ifFailed b) := by
  cases outcome with
  | done c₁ =>
      rw [ifFailed_done, List.append_nil]
      exact h
  | failed e c₁ =>
      refine ⟨?_, List.forall_mem_append.2 ⟨h.range, (hnext e c₁).range⟩⟩
      intro c' hc'
      have hfirst : c₁.depth = c.depth + Act.refusals a := h.depth c₁ rfl
      have hrest : c'.depth = c₁.depth + Act.refusals (b e c₁) := (hnext e c₁).depth c' hc'
      rw [hrest, hfirst, Act.refusals_append, Nat.add_assoc]
      rfl
  | unfinished =>
      rw [show unfinished.ifFailed b = [] from rfl, List.append_nil]
      exact h

/-- The guard around a body takes back its own level and nothing else, because the body ends at the
depth where it started or at a higher one. -/
theorem balances_leave (hlimit : c.enter.depth ≤ o.maxDepth) (h : outcome.Balances o c.enter a) :
    outcome.leave.Balances o c (.enter c.enter.depth :: (a ++ outcome.closing)) := by
  have henter : (Act.enter c.enter.depth).InRange o.maxDepth := ⟨Nat.succ_pos _, hlimit⟩
  have hdepth (c₁ : Context) (hc₁ : outcome.context? = some c₁) :
      c₁.depth = c.depth + 1 + Act.refusals a := h.depth c₁ hc₁
  have hcount (depth : Nat) : Act.refusals (.enter c.enter.depth :: (a ++ [.leave depth])) =
      Act.refusals a := by
    rw [Act.refusals, List.countP_cons_of_neg Bool.false_ne_true, List.countP_append]
    rfl
  have hclose (c₁ : Context) (hc₁ : outcome.context? = some c₁) :
      ∀ act ∈ a ++ [.leave c₁.depth], act.InRange o.maxDepth := by
    refine List.forall_mem_append.2 ⟨h.range, ?_⟩
    intro act hact
    cases List.mem_singleton.1 hact
    have hc := hdepth c₁ hc₁
    change 0 < c₁.depth
    omega
  have hleave (c₁ : Context) (hc₁ : outcome.context? = some c₁) :
      c₁.leave.depth = c.depth + Act.refusals a := by
    have hc := hdepth c₁ hc₁
    change c₁.depth - 1 = _
    omega
  cases outcome with
  | done c₁ =>
      refine ⟨?_, List.forall_mem_cons.2 ⟨henter, hclose c₁ rfl⟩⟩
      intro c' hc'
      cases hc'
      rw [hleave c₁ rfl]
      exact congrArg _ (hcount c₁.depth).symm
  | failed e c₁ =>
      refine ⟨?_, List.forall_mem_cons.2 ⟨henter, hclose c₁ rfl⟩⟩
      intro c' hc'
      cases hc'
      rw [hleave c₁ rfl]
      exact congrArg _ (hcount c₁.depth).symm
  | unfinished =>
      refine ⟨nofun, List.forall_mem_cons.2 ⟨henter, ?_⟩⟩
      rw [show unfinished.closing = [] from rfl, List.append_nil]
      exact h.range

end Outcome

/-- The acts of calls account for the depth. -/
def Caller.Balances (o : Options) (call : Caller) (inside : CallActs) : Prop :=
  ∀ family node c, (call family node c).Balances o c (inside family node c)

mutual

theorem Step.run_balances {o : Options} {call : Caller} {inside : CallActs}
    (hcall : call.Balances o inside) (step : Step) (c : Context) :
    (step.run o call c).Balances o c (step.acts o call inside c) := by
  cases step with
  | text s =>
      rw [Step.run, Step.acts]
      exact Outcome.balances_put (.text s)
  | ident i =>
      rw [Step.run, Step.acts]
      exact Outcome.balances_put (.ident i)
  | literal l =>
      rw [Step.run, Step.acts]
      exact Outcome.balances_put (.literal l)
  | guarded body =>
      rw [Step.run, Step.acts]
      by_cases hlimit : o.maxDepth < c.enter.depth
      · rw [if_pos hlimit, if_pos hlimit]
        -- The level that the guard has opened is the one that its refusal counts.
        refine ⟨?_, List.forall_mem_singleton.2 trivial⟩
        intro c' hc'
        cases hc'
        rfl
      · rw [if_neg hlimit, if_neg hlimit]
        exact Outcome.balances_leave (Nat.not_lt.1 hlimit) (Script.run_balances hcall body c.enter)
  | custom family node =>
      rw [Step.run, Step.acts]
      exact hcall family node c
  | fail e =>
      rw [Step.run, Step.acts]
      refine ⟨?_, nofun⟩
      intro c' hc'
      cases hc'
      rfl
  | attempt body rescue =>
      rw [Step.run_attempt, Step.acts]
      exact Outcome.balances_orElse (Script.run_balances hcall body c)
        fun e c₁ => Script.run_balances hcall (rescue e) c₁
  | inspect next =>
      rw [Step.run, Step.acts]
      exact Script.run_balances hcall (next ⟨o, c.sql⟩) c

theorem Script.run_balances {o : Options} {call : Caller} {inside : CallActs}
    (hcall : call.Balances o inside) (s : List Step) (c : Context) :
    (Script.run o call c s).Balances o c (Script.acts o call inside c s) := by
  cases s with
  | nil =>
      rw [Script.run_nil, Script.acts]
      refine ⟨?_, nofun⟩
      intro c' hc'
      cases hc'
      rfl
  | cons step steps =>
      rw [Script.run_cons, Script.acts]
      exact Outcome.balances_andThen (Step.run_balances hcall step c)
        fun c₁ => Script.run_balances hcall steps c₁

end

/-- The start of a handler does nothing to the depth, and then its script is run. -/
theorem Registry.balances (r : Registry) (o : Options) (calls : Nat) :
    (r.call o calls).Balances o (r.acts o calls) := by
  refine r.call_induction o (P := fun _ _ _ c outcome acts => outcome.Balances o c acts)
    ?_ ?_ ?_ calls
  · intro _ family node c _
    refine ⟨?_, nofun⟩
    intro c' hc'
    cases hc'
    rfl
  · intro family node c _ _
    exact ⟨nofun, List.forall_mem_singleton.2 trivial⟩
  · intro calls ih family node c handler _
    have hrun := Script.run_balances ih (handler node) c
    refine ⟨?_, List.forall_mem_cons.2 ⟨trivial, hrun.range⟩⟩
    intro c' hc'
    rw [hrun.depth c' hc', Act.refusals, Act.refusals, List.countP_cons_of_neg Bool.false_ne_true]

namespace Tree

/-- A tree is one guarded node. -/
theorem script_eq_guarded (t : Tree) : ∃ body, t.script = [.guarded body] := by
  cases t <;> exact ⟨_, rfl⟩

theorem sites_eq_nest (t : Tree) : ∃ inside, t.sites = Site.nest inside := by
  obtain ⟨body, hbody⟩ := t.script_eq_guarded
  have hlayout := t.layout
  rw [hbody] at hlayout
  generalize t.sites = sites at hlayout
  cases hlayout with
  | @guarded inside _ _ _ _ _ h =>
      cases h
      exact ⟨inside, List.append_nil _⟩

/-- How deep the guarded nodes of a tree stand below some more guards. -/
theorem height_add_le_iff {t : Tree} {k limit : Nat} :
    k + t.height ≤ limit ↔ ∀ site ∈ t.sites, ∀ depth ∈ site.depth?, k + depth ≤ limit := by
  constructor
  · intro h site hsite depth hdepth
    have hle := height_le_iff.1 (Nat.le_refl t.height) site hsite depth hdepth
    omega
  · intro h
    -- The outermost node is guarded, so the limit leaves room for one guard below the `k`.
    obtain ⟨inside, hinside⟩ := t.sites_eq_nest
    have houter : Site.guarded 1 ∈ t.sites := by
      rw [hinside]
      exact List.mem_cons_self
    have hroom : k + 1 ≤ limit := h _ houter 1 rfl
    have hheight : t.height ≤ limit - k := by
      rw [height_le_iff]
      intro site hsite depth hdepth
      have hle := h site hsite depth hdepth
      omega
    omega

end Tree

namespace Renderer

/-- How many guards a run has refused. -/
def refusals (r : Renderer) (c : Context) (s : Script) : Nat :=
  Act.refusals (r.acts c s)

/-- A tree without flaws is rendered into a context if and only if the levels that are left there are
enough for it. -/
theorem run_done_iff (r : Renderer) {t : Tree} (hflaws : t.flaws = []) (c : Context) :
    (∃ c', r.run c t.script = .done c') ↔ c.depth + t.height ≤ r.options.maxDepth := by
  rw [Tree.flaws, List.filterMap_eq_nil_iff] at hflaws
  have hrefuses := Registry.refuses_of_empty rfl r.options 0
  have hdefects : Site.defects r.options.maxDepth c.depth t.sites = [] ↔
      c.depth + t.height ≤ r.options.maxDepth := by
    rw [Tree.height_add_le_iff, Site.defects, List.filterMap_eq_nil_iff]
    refine forall₂_congr fun site hsite => ?_
    rw [Site.defect?_eq_none_iff]
    have hflaw := hflaws site hsite
    cases site with
    | guarded depth =>
        simp only [Site.sink, Site.flaw?, Site.depth?, Option.mem_some_iff, forall_eq', true_and,
          Nat.add_comm c.depth]
    | _ =>
        constructor
        · intro _ depth hdepth
          cases hdepth
        · intro _
          refine ⟨hflaw, ?_⟩
          intro depth hdepth
          cases hdepth
  have hnodes (family : String) (n : Extension) : Site.node family n ∉ t.sites := by
    intro hmem
    cases hflaws _ hmem
  rw [run, t.layout.run_congr hnodes _ (({} : Registry).call r.options 0), ← hdefects]
  constructor
  · rintro ⟨c', hc'⟩
    exact ((t.layout.run_eq_done hrefuses).1 hc').1
  · intro h
    exact ⟨_, (t.layout.run_eq_done hrefuses).2 ⟨h, rfl⟩⟩

/-- Whatever the handlers do and recover from, a run that ends leaves the depth that it found and one
more level for each guard that the limit has refused; no guard is closed at depth zero, and each
body starts at a depth between one and the limit. So a run without refusals restores the depth, and
each refusal takes a level from what can still be rendered afterwards. -/
theorem run_depth (r : Renderer) (s : Script) (c : Context) :
    (∀ depth, .leave depth ∈ r.acts c s → 0 < depth) ∧
      (∀ depth, .enter depth ∈ r.acts c s → 0 < depth ∧ depth ≤ r.options.maxDepth) ∧
      ∀ c', (r.run c s).context? = some c' → c'.depth = c.depth + r.refusals c s ∧
        (.refuse ∉ r.acts c s → c'.depth = c.depth) ∧
        ∀ t : Tree, t.flaws = [] → ((∃ c'', r.run c' t.script = .done c'') ↔
          c.depth + r.refusals c s + t.height ≤ r.options.maxDepth) := by
  have h : (r.run c s).Balances r.options c (r.acts c s) :=
    Script.run_balances (r.handlers.balances r.options r.callLimit) s c
  refine ⟨fun depth hdepth => h.range _ hdepth, fun depth hdepth => h.range _ hdepth, ?_⟩
  intro c' hc'
  have hdepth : c'.depth = c.depth + r.refusals c s := h.depth c' hc'
  refine ⟨hdepth, ?_, ?_⟩
  · intro hnone
    have hzero : r.refusals c s = 0 := by
      refine List.countP_eq_zero.2 fun act hact => ?_
      cases act with
      | refuse => exact absurd hact hnone
      | _ => exact Bool.false_ne_true
    rw [hdepth, hzero, Nat.add_zero]
  · intro t hflaws
    rw [run_done_iff r hflaws, hdepth]

/-- A handler that recovers from a refused guard leaves its context one level deeper, so that a pair of
brackets fits no more where it did before, while an identifier still does. -/
theorem run_depth_rescued :
    let retry : Handler := fun _ => [.attempt (Expr.paren (.ident "a")).script fun _ => [.text "?"]]
    let r : Renderer := { options := { maxDepth := 2 }, handlers := .ofList [("retry", retry)] }
    let s := (Expr.custom ⟨"retry", 0, .unit⟩).script
    (.leave 3 ∈ r.acts {} s ∧ 0 < 3) ∧ (.enter 2 ∈ r.acts {} s ∧ 0 < 2 ∧ 2 ≤ 2) ∧
      (∃ c', (r.run {} s).context? = some c' ∧ c'.depth = 1 ∧
        (∃ c'', r.run c' (Tree.expr (.ident "a")).script = .done c'') ∧
        ¬ ∃ c'', r.run c' (Tree.expr (.paren (.ident "a"))).script = .done c'') ∧
      .refuse ∉ r.acts {} (Expr.ident "a").script ∧
        ∃ c', (r.run {} (Expr.ident "a").script).context? = some c' ∧ c'.depth = 0 := by
  intro retry r s
  obtain ⟨hleave, henter, hends⟩ := run_depth r s {}
  have hacts : r.acts {} s = [.enter 1, .call "Expr" ⟨"retry", 0, .unit⟩, .enter 2,
      .put (.text "("), .refuse, .leave 3, .put (.text "?"), .leave 2] := rfl
  have hleaving : .leave 3 ∈ r.acts {} s := by simp [hacts]
  have hentering : .enter 2 ∈ r.acts {} s := by simp [hacts]
  obtain ⟨hdepth, -, hrenders⟩ := hends _ rfl
  have hone : r.refusals {} s = 1 := rfl
  rw [hone] at hdepth hrenders
  have hnone : .refuse ∉ r.acts {} (Expr.ident "a").script := by
    have hident : r.acts {} (Expr.ident "a").script =
        [.enter 1, .put (.ident "a"), .leave 1] := rfl
    simp [hident]
  refine ⟨⟨hleaving, hleave 3 hleaving⟩, ⟨hentering, henter 2 hentering⟩,
    ⟨_, rfl, hdepth, (hrenders (.expr (.ident "a")) rfl).2 (by decide), ?_⟩, hnone, _, rfl, ?_⟩
  · rw [hrenders (.expr (.paren (.ident "a"))) rfl]
    decide
  · exact ((run_depth r (Expr.ident "a").script {}).2.2 _ rfl).2.1 hnone

end Renderer

end TypedSql
