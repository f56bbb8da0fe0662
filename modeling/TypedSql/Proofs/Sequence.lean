import TypedSql.Run

/-! Runs one after the other: a run of joined scripts is the run of the first and, where that is
done, the run of the second on the context that the first has left. The call of a node is the run of
the script of its handler. -/

namespace TypedSql

namespace Outcome

/-- Goes on from an outcome that is done. -/
def andThen (outcome : Outcome) (next : Context → Outcome) : Outcome :=
  match outcome with
  | done c => next c
  | failed e c => failed e c
  | unfinished => unfinished

theorem andThen_assoc (outcome : Outcome) (f g : Context → Outcome) :
    (outcome.andThen f).andThen g = outcome.andThen fun c => (f c).andThen g := by
  cases outcome <;> rfl

theorem andThen_eq_done {outcome : Outcome} {next : Context → Outcome} {c : Context} :
    outcome.andThen next = done c ↔ ∃ c₁, outcome = done c₁ ∧ next c₁ = done c := by
  cases outcome with
  | done c₁ =>
      refine ⟨fun h => ⟨c₁, rfl, h⟩, ?_⟩
      rintro ⟨c₂, h₁, h⟩
      cases h₁
      exact h
  | failed e c₁ => exact ⟨nofun, nofun⟩
  | unfinished => exact ⟨nofun, nofun⟩

/-- Goes on from an outcome that is failed. -/
def orElse (outcome : Outcome) (next : RenderError → Context → Outcome) : Outcome :=
  match outcome with
  | done c => done c
  | failed e c => next e c
  | unfinished => unfinished

theorem leave_eq_done {outcome : Outcome} {c : Context} :
    outcome.leave = done c ↔ ∃ c₁, outcome = done c₁ ∧ c₁.leave = c := by
  cases outcome with
  | done c₁ =>
      constructor
      · intro h
        cases h
        exact ⟨c₁, rfl, rfl⟩
      · rintro ⟨c₂, h₁, rfl⟩
        cases h₁
        rfl
  | failed e c₁ => exact ⟨nofun, nofun⟩
  | unfinished => exact ⟨nofun, nofun⟩

end Outcome

namespace Script

variable (o : Options) (call : Caller) (c : Context)

theorem run_nil : run o call c [] = .done c := by
  rw [run]

theorem run_cons (step : Step) (steps : Script) :
    run o call c (step :: steps) = (step.run o call c).andThen fun c => run o call c steps := by
  rw [run]
  cases step.run o call c <;> rfl

theorem run_append (s t : Script) :
    run o call c (s ++ t) = (run o call c s).andThen fun c => run o call c t := by
  induction s generalizing c with
  | nil =>
      rw [run_nil]
      rfl
  | cons step steps ih =>
      rw [List.cons_append, run_cons, run_cons, Outcome.andThen_assoc]
      congr 1
      funext c
      exact ih c

theorem run_singleton (step : Step) : run o call c [step] = step.run o call c := by
  rw [run_cons]
  cases step.run o call c with
  | done c => exact run_nil o call c
  | _ => rfl

end Script

/-- A guard is done where there is a level left for it and its body is done inside of it. -/
theorem Step.run_guarded_eq_done {o : Options} {call : Caller} {body : Script} {c c' : Context} :
    (Step.guarded body).run o call c = .done c' ↔
      c.depth < o.maxDepth ∧ ∃ c₁, Script.run o call c.enter body = .done c₁ ∧ c₁.leave = c' := by
  rw [Step.run, ← Outcome.leave_eq_done]
  by_cases hlimit : o.maxDepth < c.enter.depth
  · rw [if_pos hlimit]
    exact ⟨nofun, fun h => absurd hlimit (Nat.not_lt.2 h.1)⟩
  · rw [if_neg hlimit]
    exact ⟨fun h => ⟨Nat.not_lt.1 hlimit, h⟩, And.right⟩

theorem Step.run_attempt (o : Options) (call : Caller) (c : Context) (body : Script)
    (rescue : RenderError → Script) :
    (Step.attempt body rescue).run o call c =
      (Script.run o call c body).orElse fun e c => Script.run o call c (rescue e) := by
  rw [Step.run]
  cases Script.run o call c body <;> rfl

namespace Registry

variable {r : Registry} {node : Extension} {handler : Handler} (o : Options) (family : String)
  (c : Context)

/-- Without a handler the call of a node fails. -/
theorem call_missing (calls : Nat) (h : r.find? node.kind = none) :
    r.call o calls family node c = .failed (.unsupportedExtension family node.kind) c := by
  rw [call.eq_def]
  dsimp only
  rw [h]

theorem call_exhausted (h : r.find? node.kind = some handler) :
    r.call o 0 family node c = .unfinished := by
  rw [call.eq_def]
  dsimp only
  rw [h]

/-- The call of a node runs the script of its handler, which calls the handlers of the nodes in it. -/
theorem call_found (calls : Nat) (h : r.find? node.kind = some handler) :
    r.call o (calls + 1) family node c = Script.run o (r.call o calls) c (handler node) := by
  rw [call.eq_def]
  dsimp only
  rw [h]

/-- All scripts of the handlers have the property. -/
def Every (r : Registry) (p : Script → Prop) : Prop :=
  ∀ kind handler, r.find? kind = some handler → ∀ node, p (handler node)

theorem every_empty (p : Script → Prop) : ({} : Registry).Every p := by
  intro kind handler h
  cases h

theorem Every.register {p : Script → Prop} (hr : r.Every p) (kind : String)
    (h : ∀ node, p (handler node)) : (r.register kind handler).Every p := by
  intro k found hfind node
  rw [find?_register] at hfind
  by_cases hk : k = kind
  · rw [if_pos hk] at hfind
    cases hfind
    exact h node
  · rw [if_neg hk] at hfind
    exact hr k found hfind node

end Registry

end TypedSql
