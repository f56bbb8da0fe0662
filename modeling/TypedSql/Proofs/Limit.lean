import TypedSql.Proofs.Act
import TypedSql.Proofs.Tree

/-! The depth limit decides nothing but whether a guard is refused. A run whose handlers neither look
at the limit nor recover from failures goes the same way under a larger one, up to the first guard
that the smaller one refuses. -/

namespace TypedSql

/-- The options with another limit. -/
def Options.withLimit (o : Options) (limit : Nat) : Options :=
  { o with maxDepth := limit }

mutual

/-- The step recovers from no failure, and what it sees of the limit does not matter to it. -/
def Step.Straight : Step → Prop
  | .guarded body => Script.Straight body
  | .attempt _ _ => False
  | .inspect next => ∀ seen, Script.Straight (next seen) ∧
      ∀ limit, next { seen with options := seen.options.withLimit limit } = next seen
  | _ => True

def Script.Straight : List Step → Prop
  | [] => True
  | step :: steps => step.Straight ∧ Script.Straight steps

end

/-- All that the handlers do is straight. They may render any tree. -/
def Registry.Straight (r : Registry) : Prop :=
  r.Every Script.Straight

theorem Layout.straight {sites : List Site} {s : Script} (h : Layout sites s) :
    Script.Straight s := by
  induction h with
  | nil => exact trivial
  | guarded _ _ _ ihbody ih => exact ⟨ihbody, ih⟩
  | text _ _ ih | operator _ ih | ident _ _ ih | literal _ _ ih | short _ ih | unscaled _ ih
  | node _ ih => exact ⟨trivial, ih⟩

namespace Outcome

/-- The other outcome is the same, unless this one is a refusal of the limit or no end at all. -/
inductive Stands : Outcome → Outcome → Prop
  | refl (outcome : Outcome) : Stands outcome outcome
  | refused (limit : Nat) (c : Context) (outcome : Outcome) :
      Stands (failed (.recursionLimitExceeded limit) c) outcome
  | unfinished (outcome : Outcome) : Stands unfinished outcome

namespace Stands

variable {outcome outcome' : Outcome}

theorem andThen {next next' : Context → Outcome} (h : outcome.Stands outcome')
    (hnext : ∀ c, (next c).Stands (next' c)) :
    (outcome.andThen next).Stands (outcome'.andThen next') := by
  cases h with
  | refl =>
      cases outcome with
      | done c => exact hnext c
      | _ => exact refl _
  | refused limit c => exact refused limit c _
  | unfinished => exact unfinished _

theorem leave (h : outcome.Stands outcome') : outcome.leave.Stands outcome'.leave := by
  cases h with
  | refl => exact refl _
  | refused limit c => exact refused limit c.leave _
  | unfinished => exact unfinished _

end Stands

end Outcome

/-- Calls go the same way with the other caller. -/
def Caller.Stands (call call' : Caller) : Prop :=
  ∀ family node c, (call family node c).Stands (call' family node c)

mutual

theorem Step.run_stands {o : Options} {limit : Nat} (hle : o.maxDepth ≤ limit)
    {call call' : Caller} (hcall : call.Stands call') (step : Step) (hstep : step.Straight)
    (c : Context) : (step.run o call c).Stands (step.run (o.withLimit limit) call' c) := by
  cases step with
  | guarded body =>
      rw [Step.Straight] at hstep
      rw [Step.run, Step.run]
      by_cases hlimit : o.maxDepth < c.enter.depth
      · rw [if_pos hlimit]
        exact .refused _ _ _
      · have hlimit' : ¬ (o.withLimit limit).maxDepth < c.enter.depth :=
          Nat.not_lt.2 (Nat.le_trans (Nat.not_lt.1 hlimit) hle)
        rw [if_neg hlimit, if_neg hlimit']
        exact (Script.run_stands hle hcall body hstep c.enter).leave
  | custom family node =>
      rw [Step.run, Step.run]
      exact hcall family node c
  | attempt body rescue =>
      rw [Step.Straight] at hstep
      exact hstep.elim
  | inspect next =>
      rw [Step.Straight] at hstep
      obtain ⟨hnext, hblind⟩ := hstep ⟨o, c.sql⟩
      have hsame : next ⟨o.withLimit limit, c.sql⟩ = next ⟨o, c.sql⟩ := hblind limit
      rw [Step.run, Step.run, hsame]
      exact Script.run_stands hle hcall _ hnext c
  | text s | ident i | literal l | fail e =>
      rw [Step.run, Step.run]
      exact .refl _

theorem Script.run_stands {o : Options} {limit : Nat} (hle : o.maxDepth ≤ limit)
    {call call' : Caller} (hcall : call.Stands call') (s : List Step) (hs : Script.Straight s)
    (c : Context) : (Script.run o call c s).Stands (Script.run (o.withLimit limit) call' c s) := by
  cases s with
  | nil =>
      rw [Script.run_nil, Script.run_nil]
      exact .refl _
  | cons step steps =>
      rw [Script.Straight] at hs
      rw [Script.run_cons, Script.run_cons]
      exact (Step.run_stands hle hcall step hs.1 c).andThen
        fun c₁ => Script.run_stands hle hcall steps hs.2 c₁

end

theorem Registry.Straight.stands {r : Registry} (hr : r.Straight) {o : Options} {limit : Nat}
    (hle : o.maxDepth ≤ limit) (calls : Nat) :
    (r.call o calls).Stands (r.call (o.withLimit limit) calls) := by
  refine r.call_induction o (P := fun calls family node c outcome _ =>
    outcome.Stands (r.call (o.withLimit limit) calls family node c)) ?_ ?_ ?_ calls
  · intro calls family node c hfind
    rw [call_missing _ family c calls hfind]
    exact .refl _
  · intro family node c _ _
    exact .unfinished _
  · intro calls ih family node c handler hfind
    rw [call_found _ family c calls hfind]
    exact Script.run_stands hle ih (handler node) (hr node.kind handler hfind node) c

/-- The renderer with another limit. -/
def Renderer.withLimit (r : Renderer) (limit : Nat) : Renderer :=
  { r with options := r.options.withLimit limit }

namespace Tree

/-- Where handlers neither look at the limit nor recover from failures, a larger limit only takes
refusals back: whatever a tree renders to under a limit, a text with its values or another error, it
renders to under every larger one. -/
theorem result_of_le_limit (r : Renderer) (hr : r.handlers.Straight) (t : Tree)
    {limit limit' : Nat} (hle : limit ≤ limit') :
    (∀ a, (t.report (r.withLimit limit)).result = .ok a →
        (t.report (r.withLimit limit')).result = .ok a) ∧
      ∀ e, (t.report (r.withLimit limit)).result = .error (.error e) →
        (∀ l, e ≠ .recursionLimitExceeded l) →
          (t.report (r.withLimit limit')).result = .error (.error e) := by
  have hcall := hr.stands (o := r.options.withLimit limit) hle r.callLimit
  have hrun : ((r.withLimit limit).run {} t.script).Stands
      ((r.withLimit limit').run {} t.script) :=
    Script.run_stands (o := r.options.withLimit limit) hle hcall t.script t.layout.straight {}
  rw [report_result, report_result, Renderer.render, Renderer.render]
  generalize (r.withLimit limit).run {} t.script = outcome at hrun ⊢
  cases hrun with
  | refl =>
      refine ⟨fun a ha => ha, fun e he _ => he⟩
  | refused l c =>
      constructor
      · intro a ha
        cases ha
      · intro e he hother
        cases he
        exact absurd rfl (hother l)
  | unfinished =>
      constructor
      · intro a ha
        cases ha
      · intro e he
        cases he

/-- A handler that asks for the mode and renders a name in brackets: under the larger limit the name of
one segment fails in the same way, and a whole name is written in the same way. -/
theorem result_of_le_limit_mode :
    let named (segments : List Ident) : Handler := fun _ => [.inspect fun seen =>
      if seen.options.paramsMode then [.text "?"] else (Expr.paren (.compound segments)).script]
    let r (segments : List Ident) : Renderer :=
      { handlers := ({} : Registry).register "named" (named segments) }
    let t := expr (.custom ⟨"named", 0, .unit⟩)
    let short := RenderError.malformedTree "CompoundIdent" "expected at least 2 segments, got 1"
    (r ["a", "b"]).handlers.Straight ∧ (r ["a"]).handlers.Straight ∧ 3 ≤ 9 ∧
      (t.report ((r ["a", "b"]).withLimit 3)).result = .ok ⟨"(\"a\".\"b\")", []⟩ ∧
      (t.report ((r ["a", "b"]).withLimit 9)).result = .ok ⟨"(\"a\".\"b\")", []⟩ ∧
      (t.report ((r ["a"]).withLimit 3)).result = .error (.error short) ∧
      (∀ l, short ≠ .recursionLimitExceeded l) ∧
      (t.report ((r ["a"]).withLimit 9)).result = .error (.error short) := by
  intro named r t short
  have hr (segments : List Ident) : (r segments).handlers.Straight := by
    refine (Registry.every_empty _).register "named" fun _ => ⟨fun seen => ⟨?_, fun _ => rfl⟩, trivial⟩
    dsimp only
    split
    · exact ⟨trivial, trivial⟩
    · exact (Expr.paren (.compound segments)).layout.straight
  have hle : 3 ≤ 9 := by decide
  have hok : (t.report ((r ["a", "b"]).withLimit 3)).result = .ok ⟨"(\"a\".\"b\")", []⟩ := rfl
  have herror : (t.report ((r ["a"]).withLimit 3)).result = .error (.error short) := rfl
  exact ⟨hr _, hr _, hle, hok, (result_of_le_limit (r ["a", "b"]) (hr _) t hle).1 _ hok, herror,
    nofun, (result_of_le_limit (r ["a"]) (hr _) t hle).2 short herror nofun⟩

end Tree

end TypedSql
