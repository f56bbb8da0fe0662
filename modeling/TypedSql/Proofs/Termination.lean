import TypedSql.Proofs.Depth

/-! When runs end. Each call of a handler from inside of a guard stands at least one level deeper than
the handler that makes it, and no run ends at a lower depth than it started at, so the limit bounds
the calls that are open at once. A handler that hands a node of its own kind on without a guard calls
itself at the same depth, and no number of calls is enough for it. -/

namespace TypedSql

mutual

/-- The step calls handlers from inside of guards only. -/
def Step.Shielded : Step → Prop
  | .custom _ _ => False
  | .attempt body rescue => Script.Shielded body ∧ ∀ e, Script.Shielded (rescue e)
  | .inspect next => ∀ seen, Script.Shielded (next seen)
  | _ => True

def Script.Shielded : List Step → Prop
  | [] => True
  | step :: steps => step.Shielded ∧ Script.Shielded steps

end

/-- All that the handlers do is shielded. What they render may be any tree, also one with nodes of
their own kind. -/
def Registry.Shielded (r : Registry) : Prop :=
  r.Every Script.Shielded

theorem Tree.shielded_script (t : Tree) : Script.Shielded t.script := by
  obtain ⟨body, hbody⟩ := t.script_eq_guarded
  rw [hbody]
  exact ⟨trivial, trivial⟩

/-- The calls are enough for the levels that are left at the context: there are more of them, or, for
what is shielded, as many. -/
def Context.Affords (o : Options) (calls : Nat) (c : Context) (shielded : Prop) : Prop :=
  o.maxDepth - c.depth < calls ∨ shielded ∧ o.maxDepth - c.depth ≤ calls

theorem Context.Affords.mono {o : Options} {calls : Nat} {c c' : Context} {p q : Prop}
    (h : c.Affords o calls p) (hle : c.depth ≤ c'.depth) (hpq : p → q) : c'.Affords o calls q := by
  rcases h with hless | ⟨hp, hle'⟩
  · exact .inl (by omega)
  · exact .inr ⟨hpq hp, by omega⟩

namespace Outcome

theorem leave_ne_unfinished {outcome : Outcome} (h : outcome ≠ unfinished) :
    outcome.leave ≠ unfinished := by
  cases outcome with
  | unfinished => exact absurd rfl h
  | _ => exact nofun

theorem andThen_ne_unfinished {outcome : Outcome} {next : Context → Outcome}
    (h : outcome ≠ unfinished) (hnext : ∀ c, outcome.context? = some c → next c ≠ unfinished) :
    outcome.andThen next ≠ unfinished := by
  cases outcome with
  | done c => exact hnext c rfl
  | failed e c => exact nofun
  | unfinished => exact absurd rfl h

theorem orElse_ne_unfinished {outcome : Outcome} {next : RenderError → Context → Outcome}
    (h : outcome ≠ unfinished) (hnext : ∀ e c, outcome.context? = some c → next e c ≠ unfinished) :
    outcome.orElse next ≠ unfinished := by
  cases outcome with
  | done c => exact nofun
  | failed e c => exact hnext e c rfl
  | unfinished => exact absurd rfl h

end Outcome

/-- Calls end from all contexts where fewer levels are left than calls. -/
def Caller.Ends (o : Options) (calls : Nat) (call : Caller) : Prop :=
  ∀ family node c, o.maxDepth - c.depth < calls → call family node c ≠ .unfinished

mutual

theorem Step.run_ends {o : Options} {call : Caller} {inside : CallActs} {calls : Nat}
    (hdepth : call.Balances o inside) (hcall : call.Ends o calls) (step : Step) (c : Context)
    (h : c.Affords o calls step.Shielded) : step.run o call c ≠ .unfinished := by
  cases step with
  | guarded body =>
      rw [Step.run]
      by_cases hlimit : o.maxDepth < c.enter.depth
      · rw [if_pos hlimit]
        exact nofun
      · rw [if_neg hlimit]
        -- The guard takes a level, so inside of it the calls are enough for any step.
        have hless : o.maxDepth - c.enter.depth < calls := by
          have henter : c.enter.depth = c.depth + 1 := rfl
          rcases h with hless | ⟨-, hle⟩ <;> omega
        exact Outcome.leave_ne_unfinished (Script.run_ends hdepth hcall body c.enter (.inl hless))
  | custom family node =>
      rw [Step.run]
      rcases h with hless | ⟨hshielded, -⟩
      · exact hcall family node c hless
      · rw [Step.Shielded] at hshielded
        exact hshielded.elim
  | attempt body rescue =>
      rw [Step.run_attempt]
      rw [Step.Shielded] at h
      have hbody := h.mono (Nat.le_refl _) And.left
      refine Outcome.orElse_ne_unfinished (Script.run_ends hdepth hcall body c hbody) ?_
      intro e c₁ hc₁
      have hle := (Script.run_balances hdepth body c).le hc₁
      exact Script.run_ends hdepth hcall (rescue e) c₁ (h.mono hle fun hs => hs.2 e)
  | inspect next =>
      rw [Step.run]
      rw [Step.Shielded] at h
      exact Script.run_ends hdepth hcall _ c (h.mono (Nat.le_refl _) fun hs => hs _)
  | _ =>
      rw [Step.run]
      exact nofun

theorem Script.run_ends {o : Options} {call : Caller} {inside : CallActs} {calls : Nat}
    (hdepth : call.Balances o inside) (hcall : call.Ends o calls) (s : List Step) (c : Context)
    (h : c.Affords o calls (Script.Shielded s)) : Script.run o call c s ≠ .unfinished := by
  cases s with
  | nil =>
      rw [Script.run_nil]
      exact nofun
  | cons step steps =>
      rw [Script.run_cons]
      rw [Script.Shielded] at h
      have hstep := h.mono (Nat.le_refl _) And.left
      refine Outcome.andThen_ne_unfinished (Step.run_ends hdepth hcall step c hstep) ?_
      intro c₁ hc₁
      have hle := (Step.run_balances hdepth step c).le hc₁
      exact Script.run_ends hdepth hcall steps c₁ (h.mono hle And.right)

end

/-- The script of a shielded handler needs one call less than the call of the handler. -/
theorem Registry.Shielded.ends {r : Registry} (hr : r.Shielded) (o : Options) (calls : Nat) :
    (r.call o calls).Ends o calls := by
  refine r.call_induction o (P := fun calls _ _ c outcome _ =>
    o.maxDepth - c.depth < calls → outcome ≠ .unfinished) ?_ ?_ ?_ calls
  · intro _ family node c _ _
    exact nofun
  · intro family node c _ _ h
    exact absurd h (Nat.not_lt_zero _)
  · intro calls ih family node c handler hfind h
    exact Script.run_ends (r.balances o calls) ih (handler node) c
      (.inr ⟨hr node.kind handler hfind node, Nat.le_of_lt_succ h⟩)

/-! ### More calls than are needed -/

/-- The other caller does the same wherever this one ends. -/
def Caller.Extends (call call' : Caller) : Prop :=
  ∀ family node c, call family node c ≠ .unfinished → call' family node c = call family node c

namespace Outcome

variable {outcome outcome' : Outcome}

theorem andThen_extends {next next' : Context → Outcome}
    (hend : outcome.andThen next ≠ unfinished)
    (h : outcome ≠ unfinished → outcome' = outcome)
    (hnext : ∀ c, next c ≠ unfinished → next' c = next c) :
    outcome'.andThen next' = outcome.andThen next := by
  cases outcome with
  | done c =>
      rw [h nofun]
      exact hnext c hend
  | failed e c =>
      rw [h nofun]
      rfl
  | unfinished => exact absurd rfl hend

theorem orElse_extends {next next' : RenderError → Context → Outcome}
    (hend : outcome.orElse next ≠ unfinished)
    (h : outcome ≠ unfinished → outcome' = outcome)
    (hnext : ∀ e c, next e c ≠ unfinished → next' e c = next e c) :
    outcome'.orElse next' = outcome.orElse next := by
  cases outcome with
  | done c =>
      rw [h nofun]
      rfl
  | failed e c =>
      rw [h nofun]
      exact hnext e c hend
  | unfinished => exact absurd rfl hend

theorem leave_extends (hend : outcome.leave ≠ unfinished)
    (h : outcome ≠ unfinished → outcome' = outcome) : outcome'.leave = outcome.leave := by
  rw [h]
  rintro rfl
  exact hend rfl

end Outcome

mutual

theorem Step.run_extends {o : Options} {call call' : Caller} (h : call.Extends call')
    (step : Step) (c : Context) (hend : step.run o call c ≠ .unfinished) :
    step.run o call' c = step.run o call c := by
  cases step with
  | guarded body =>
      rw [Step.run] at hend
      rw [Step.run, Step.run]
      by_cases hlimit : o.maxDepth < c.enter.depth
      · rw [if_pos hlimit, if_pos hlimit]
      · rw [if_neg hlimit] at hend
        rw [if_neg hlimit, if_neg hlimit]
        exact Outcome.leave_extends hend (Script.run_extends h body c.enter)
  | custom family node =>
      rw [Step.run] at hend
      rw [Step.run, Step.run]
      exact h family node c hend
  | attempt body rescue =>
      rw [Step.run_attempt] at hend
      rw [Step.run_attempt, Step.run_attempt]
      exact Outcome.orElse_extends hend (Script.run_extends h body c)
        fun e c₁ => Script.run_extends h (rescue e) c₁
  | inspect next =>
      rw [Step.run] at hend
      rw [Step.run, Step.run]
      exact Script.run_extends h _ c hend
  | _ => rw [Step.run, Step.run]

theorem Script.run_extends {o : Options} {call call' : Caller} (h : call.Extends call')
    (s : List Step) (c : Context) (hend : Script.run o call c s ≠ .unfinished) :
    Script.run o call' c s = Script.run o call c s := by
  cases s with
  | nil => rw [Script.run_nil, Script.run_nil]
  | cons step steps =>
      rw [Script.run_cons] at hend
      rw [Script.run_cons, Script.run_cons]
      exact Outcome.andThen_extends hend (Step.run_extends h step c)
        fun c₁ => Script.run_extends h steps c₁

end

theorem Registry.call_extends_succ (r : Registry) (o : Options) (calls : Nat) :
    (r.call o calls).Extends (r.call o (calls + 1)) := by
  refine r.call_induction o (P := fun calls family node c outcome _ =>
    outcome ≠ .unfinished → r.call o (calls + 1) family node c = outcome) ?_ ?_ ?_ calls
  · intro calls family node c hfind _
    exact call_missing o family c (calls + 1) hfind
  · intro family node c _ _ hend
    exact absurd rfl hend
  · intro calls ih family node c handler hfind hend
    rw [call_found o family c (calls + 1) hfind]
    exact Script.run_extends ih (handler node) c hend

theorem Registry.call_extends (r : Registry) (o : Options) {calls calls' : Nat}
    (h : calls ≤ calls') : (r.call o calls).Extends (r.call o calls') := by
  induction h with
  | refl => exact fun _ _ _ _ => rfl
  | @step calls' _ ih =>
      intro family node c hend
      rw [r.call_extends_succ o calls' family node c (by rwa [ih family node c hend]),
        ih family node c hend]

/-! ### Handlers that hand on nodes of their own kind -/

/-- The script does nothing but hand a node of a kind to its handler: as a custom variant, in a slot
or as a type. -/
inductive Script.Hands (kind : String) : Script → Prop
  | custom (family : String) (n : Extension) (h : n.kind = kind) : Hands kind [.custom family n]
  | slot (family : String) (n : Extension) (h : n.kind = kind) :
      Hands kind (Extension.slot family (some n))
  | type (n : Extension) (h : n.kind = kind) : Hands kind (DataType.custom n).script

/-- The handler of a kind hands on a node of the same kind before all else. -/
def Registry.Recalls (r : Registry) (kind : String) : Prop :=
  ∃ handler, r.find? kind = some handler ∧ ∀ node, node.kind = kind →
    ∃ first rest, Script.Hands kind first ∧ handler node = first ++ rest

namespace Act

/-- The act has nothing to do with a guard, so it leaves the depth as it is. -/
def Level : Act → Prop
  | put _ => True
  | call _ _ => True
  | _ => False

end Act

/-- Where calls for a kind do not end, a script that starts by handing on a node of the kind does not
come to anything else. -/
theorem Script.Hands.run_append {kind : String} {first : Script} (h : Hands kind first)
    {o : Options} {call : Caller} (hcall : ∀ family n c, n.kind = kind →
      call family n c = .unfinished) (inside : CallActs) (rest : Script) (c : Context) :
    Script.run o call c (first ++ rest) = .unfinished ∧
      ∃ (before : List Token) (family : String) (n : Extension) (c' : Context), n.kind = kind ∧
        Script.acts o call inside c (first ++ rest) = before.map .put ++ inside family n c' := by
  have hcustom (family : String) (n : Extension) (hn : n.kind = kind) (c : Context) :
      Script.run o call c (.custom family n :: rest) = .unfinished ∧
        Script.acts o call inside c (.custom family n :: rest) = inside family n c := by
    rw [Script.run_cons, Script.acts, Step.run, Step.acts, hcall family n c hn]
    exact ⟨rfl, List.append_nil _⟩
  cases h with
  | custom family n hn =>
      obtain ⟨hrun, hacts⟩ := hcustom family n hn c
      exact ⟨hrun, [], family, n, c, hn, hacts⟩
  | slot family n hn =>
      obtain ⟨hrun, hacts⟩ := hcustom family n hn (c.write " ")
      refine ⟨?_, [.text " "], family, n, c.write " ", hn, ?_⟩
      · rw [Extension.slot, List.cons_append, Script.run_cons, Step.run]
        exact hrun
      · rw [Extension.slot, List.cons_append, Script.acts, Step.run, Step.acts]
        exact congrArg _ hacts
  | type n hn =>
      obtain ⟨hrun, hacts⟩ := hcustom "DataType" n hn c
      exact ⟨hrun, [], "DataType", n, c, hn, hacts⟩

namespace Registry

variable {r : Registry} {kind : String}

/-- However many calls are allowed, a handler that hands on a node of its own kind needs one more. -/
theorem Recalls.call_eq_unfinished (h : r.Recalls kind) (o : Options) (calls : Nat)
    (family : String) (node : Extension) (c : Context) (hkind : node.kind = kind) :
    r.call o calls family node c = .unfinished := by
  obtain ⟨handler, hhandler, hhands⟩ := h
  have hfind : r.find? node.kind = some handler := by rw [hkind, hhandler]
  induction calls generalizing family node c with
  | zero => exact call_exhausted o family c hfind
  | succ calls ih =>
      obtain ⟨first, rest, hfirst, hscript⟩ := hhands node hkind
      rw [call_found o family c calls hfind, hscript]
      refine (hfirst.run_append ?_ (r.acts o calls) rest c).1
      intro family' n c' hn
      exact ih family' n c' hn (by rw [hn, hhandler])

/-- All these calls are made at one depth. -/
theorem Recalls.level_acts (h : r.Recalls kind) (o : Options) (calls : Nat) (family : String)
    (node : Extension) (c : Context) (hkind : node.kind = kind) :
    ((r.acts o calls family node c).filterMap Act.node?).length = calls + 1 ∧
      ∀ act ∈ r.acts o calls family node c, act.Level := by
  have hends := h.call_eq_unfinished o
  obtain ⟨handler, hhandler, hhands⟩ := h
  have hfind : r.find? node.kind = some handler := by rw [hkind, hhandler]
  induction calls generalizing family node c with
  | zero =>
      rw [acts_exhausted o family c hfind]
      exact ⟨rfl, List.forall_mem_singleton.2 trivial⟩
  | succ calls ih =>
      obtain ⟨first, rest, hfirst, hscript⟩ := hhands node hkind
      obtain ⟨-, before, family', n, c', hn, hacts⟩ :=
        hfirst.run_append (hends calls) (r.acts o calls) rest c
      obtain ⟨hcount, hlevel⟩ := ih family' n c' hn (by rw [hn, hhandler])
      have hbefore : (before.map Act.put).filterMap Act.node? = [] := by
        rw [List.filterMap_map]
        exact List.filterMap_eq_nil_iff.2 fun _ _ => rfl
      rw [acts_found o family c calls hfind, hscript, hacts]
      refine ⟨?_, List.forall_mem_cons.2 ⟨trivial, List.forall_mem_append.2 ⟨?_, hlevel⟩⟩⟩
      · rw [List.filterMap_cons_some (by rfl), List.length_cons, List.filterMap_append, hbefore,
          List.nil_append, hcount]
      · exact List.forall_mem_map.2 fun _ _ => trivial

end Registry

/-- Where a node of the kind is called, the caller does not end. -/
def Caller.Hangs (kind : String) (call : Caller) (inside : CallActs) : Prop :=
  ∀ family node c family' node', .call family' node' ∈ inside family node c →
    node'.kind = kind → call family node c = .unfinished

mutual

theorem Step.run_hangs {kind : String} {o : Options} {call : Caller} {inside : CallActs}
    (hcall : call.Hangs kind inside) {family : String} {node : Extension}
    (hkind : node.kind = kind) (step : Step) (c : Context)
    (h : .call family node ∈ step.acts o call inside c) : step.run o call c = .unfinished := by
  cases step with
  | guarded body =>
      rw [Step.acts] at h
      rw [Step.run]
      by_cases hlimit : o.maxDepth < c.enter.depth
      · rw [if_pos hlimit] at h
        cases List.mem_singleton.1 h
      · rw [if_neg hlimit] at h
        rw [if_neg hlimit]
        have hbody : .call family node ∈ Script.acts o call inside c.enter body := by
          rcases List.mem_cons.1 h with h | h
          · cases h
          · rcases List.mem_append.1 h with h | h
            · exact h
            · obtain ⟨c₁, -, hc₁⟩ := List.mem_map.1 h
              cases hc₁
        rw [Script.run_hangs hcall hkind body c.enter hbody]
        rfl
  | custom family' node' =>
      rw [Step.acts] at h
      rw [Step.run]
      exact hcall family' node' c family node h hkind
  | attempt body rescue =>
      rw [Step.acts] at h
      rw [Step.run_attempt]
      rcases List.mem_append.1 h with h | h
      · rw [Script.run_hangs hcall hkind body c h]
        rfl
      · cases hbody : Script.run o call c body with
        | failed e c₁ =>
            rw [hbody] at h
            exact Script.run_hangs hcall hkind (rescue e) c₁ h
        | done c₁ =>
            rw [hbody] at h
            cases h
        | unfinished => rfl
  | inspect next =>
      rw [Step.acts] at h
      rw [Step.run]
      exact Script.run_hangs hcall hkind _ c h
  | fail e =>
      rw [Step.acts] at h
      cases h
  | _ =>
      rw [Step.acts] at h
      cases List.mem_singleton.1 h

theorem Script.run_hangs {kind : String} {o : Options} {call : Caller} {inside : CallActs}
    (hcall : call.Hangs kind inside) {family : String} {node : Extension}
    (hkind : node.kind = kind) (s : List Step) (c : Context)
    (h : .call family node ∈ Script.acts o call inside c s) :
    Script.run o call c s = .unfinished := by
  cases s with
  | nil =>
      rw [Script.acts] at h
      cases h
  | cons step steps =>
      rw [Script.acts] at h
      rw [Script.run_cons]
      rcases List.mem_append.1 h with h | h
      · rw [Step.run_hangs hcall hkind step c h]
        rfl
      · cases hstep : step.run o call c with
        | done c₁ =>
            rw [hstep] at h
            exact Script.run_hangs hcall hkind steps c₁ h
        | failed e c₁ =>
            rw [hstep] at h
            cases h
        | unfinished => rfl

end

/-- A call for the kind is either the first act of a call or an act of the script of its handler. -/
theorem Registry.Recalls.hangs {r : Registry} {kind : String} (h : r.Recalls kind) (o : Options)
    (calls : Nat) : (r.call o calls).Hangs kind (r.acts o calls) := by
  refine r.call_induction o (P := fun _ _ _ _ outcome acts => ∀ family' node',
    .call family' node' ∈ acts → node'.kind = kind → outcome = .unfinished) ?_ ?_ ?_ calls
  · intro _ family node c _ family' node' hact _
    cases hact
  · intro family node c _ _ family' node' _ _
    rfl
  · intro calls ih family node c handler hfind family' node' hact hkind
    rcases List.mem_cons.1 hact with hact | hact
    · cases hact
      rw [← call_found o family c calls hfind]
      exact h.call_eq_unfinished o (calls + 1) family node c hkind
    · exact Script.run_hangs ih hkind (handler node) c hact

namespace Renderer

/-- The renderer where so many calls may be open at once. -/
def allowing (r : Renderer) (calls : Nat) : Renderer :=
  { r with callLimit := calls }

/-- A shielded run ends, and with all numbers of calls that the levels left at its context afford it
ends in the same way. -/
theorem run_allowing {r : Renderer} (hr : r.handlers.Shielded) (s : Script) (c : Context)
    {calls : Nat} (h : c.Affords r.options calls (Script.Shielded s)) :
    (r.allowing calls).run c s ≠ .unfinished ∧
      ∀ more, calls ≤ more → (r.allowing more).run c s = (r.allowing calls).run c s := by
  have hend : (r.allowing calls).run c s ≠ .unfinished :=
    Script.run_ends (r.handlers.balances r.options calls) (hr.ends r.options calls) s c h
  exact ⟨hend, fun more hle =>
    Script.run_extends (r.handlers.call_extends r.options hle) s c hend⟩

/-- Where handlers call handlers from inside of guards only, every tree is rendered to a result or an
error, and every run on any context ends: as many open calls as there are levels are enough for a
tree, and more of them change nothing. A handler that hands on a node of its own kind before all else
ends no run that it is called in. However many calls are allowed, it makes one more, and neither
opens a guard nor is refused one on the way. -/
theorem run_settles (r : Renderer) :
    (r.handlers.Shielded →
      (∀ t : Tree, ∃ result : Except RenderError Rendered, ∀ calls, r.options.maxDepth ≤ calls →
        (t.report (r.allowing calls)).result = result.mapError .error) ∧
      ∀ (s : Script) (c : Context), ∃ outcome, outcome ≠ .unfinished ∧
        ∀ calls, r.options.maxDepth - c.depth < calls → (r.allowing calls).run c s = outcome) ∧
    ∀ kind, r.handlers.Recalls kind → ∀ (family : String) (node : Extension), node.kind = kind →
      (∀ (s : Script) (c : Context), .call family node ∈ r.acts c s → r.run c s = .unfinished) ∧
      ∀ (calls : Nat) (c : Context),
        ((r.handlers.acts r.options calls family node c).filterMap Act.node?).length = calls + 1 ∧
        ∀ act ∈ r.handlers.acts r.options calls family node c, act.Level := by
  refine ⟨fun hr => ⟨?_, ?_⟩, ?_⟩
  · intro t
    have hafford : ({} : Context).Affords r.options r.options.maxDepth (Script.Shielded t.script) :=
      .inr ⟨t.shielded_script, Nat.sub_le _ _⟩
    obtain ⟨hend, hmore⟩ := run_allowing hr t.script {} hafford
    cases hrun : (r.allowing r.options.maxDepth).run {} t.script with
    | done c =>
        refine ⟨.ok (finish c), ?_⟩
        intro calls hcalls
        rw [Tree.report_result, render, hmore calls hcalls, hrun]
        rfl
    | failed e c =>
        refine ⟨.error e, ?_⟩
        intro calls hcalls
        rw [Tree.report_result, render, hmore calls hcalls, hrun]
        rfl
    | unfinished => exact absurd hrun hend
  · intro s c
    have hafford : c.Affords r.options (r.options.maxDepth - c.depth + 1) (Script.Shielded s) :=
      .inl (Nat.lt_succ_self _)
    obtain ⟨hend, hmore⟩ := run_allowing hr s c hafford
    exact ⟨_, hend, hmore⟩
  · intro kind hrecalls family node hkind
    refine ⟨?_, fun calls c => hrecalls.level_acts r.options calls family node c hkind⟩
    intro s c hact
    exact Script.run_hangs (hrecalls.hangs r.options r.callLimit) hkind s c hact

/-- A handler that renders its own node in brackets and recovers where the limit ends that, beside one
that hands its node on as it is. -/
theorem run_settles_again :
    let again : Handler := fun n => [.attempt (Expr.paren (.custom n)).script fun _ => [.text "a"]]
    let r : Renderer :=
      { options := { maxDepth := 3 }, handlers := ({} : Registry).register "again" again }
    let t := Tree.expr (.custom ⟨"again", 0, .unit⟩)
    let echo : Handler := fun n => [.custom "Expr" n, .text "a"]
    let r' : Renderer := { handlers := ({} : Registry).register "echo" echo, callLimit := 2 }
    let node : Extension := ⟨"echo", 0, .unit⟩
    r.handlers.Shielded ∧
      (∀ calls, 3 ≤ calls → (t.report (r.allowing calls)).result = .ok ⟨"(a)", []⟩) ∧
      (∃ outcome, outcome ≠ .unfinished ∧ 3 - 1 < 3 ∧
        (r.allowing 3).run { depth := 1 } t.script = outcome) ∧
      r'.handlers.Recalls "echo" ∧ node.kind = "echo" ∧
      .call "Expr" node ∈ r'.acts {} (Expr.custom node).script ∧
      r'.run {} (Expr.custom node).script = .unfinished ∧
      ((r'.handlers.acts r'.options 7 "Expr" node {}).filterMap Act.node?).length = 8 := by
  intro again r t echo r' node
  have hr : r.handlers.Shielded := by
    refine (Registry.every_empty _).register "again" fun n => ?_
    exact ⟨⟨⟨trivial, trivial⟩, fun _ => ⟨trivial, trivial⟩⟩, trivial⟩
  have hrecalls : r'.handlers.Recalls "echo" :=
    ⟨echo, rfl, fun n hn => ⟨_, [.text "a"], .custom "Expr" n hn, rfl⟩⟩
  obtain ⟨htrees, hruns⟩ := (run_settles r).1 hr
  obtain ⟨hends, hcalls⟩ := (run_settles r').2 "echo" hrecalls "Expr" node rfl
  have hcall : .call "Expr" node ∈ r'.acts {} (Expr.custom node).script :=
    List.mem_cons_of_mem _ List.mem_cons_self
  refine ⟨hr, ?_, ?_, hrecalls, rfl, hcall, hends _ {} hcall, (hcalls 7 {}).1⟩
  · obtain ⟨result, hresult⟩ := htrees t
    have hthree : (t.report (r.allowing 3)).result = .ok ⟨"(a)", []⟩ := rfl
    rw [hresult 3 (Nat.le_refl 3)] at hthree
    intro calls hle
    rw [hresult calls hle, hthree]
  · obtain ⟨outcome, hend, houtcome⟩ := hruns t.script { depth := 1 }
    exact ⟨outcome, hend, by decide, houtcome 3 (by decide)⟩

end Renderer

end TypedSql
