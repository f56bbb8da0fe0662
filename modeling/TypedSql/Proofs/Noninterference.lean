import TypedSql.Proofs.Relabel.Script
import TypedSql.Proofs.Sequence

/-! Where literals are bound, their values reach nothing but the bound values. Two runs of scripts
that differ in literals only go the same way, whatever the handlers look at, fail with and recover
from, because no step reads a value back. -/

namespace TypedSql

namespace Context

/-- The contexts differ at most in the values that are bound. -/
structure Alike (c c' : Context) : Prop where
  pieces : c.pieces = c'.pieces
  count : c.params.size = c'.params.size
  depth : c.depth = c'.depth

namespace Alike

variable {c c' : Context}

theorem refl (c : Context) : c.Alike c := ⟨rfl, rfl, rfl⟩

theorem join {c₁ : Context} (h : c.Alike c₁) (h' : c'.Alike c₁) : c.Alike c' :=
  ⟨h.pieces.trans h'.pieces.symm, h.count.trans h'.count.symm, h.depth.trans h'.depth.symm⟩

theorem sql (h : c.Alike c') : c.sql = c'.sql := by
  rw [Context.sql, Context.sql, h.pieces]

theorem write (h : c.Alike c') (s : String) : (c.write s).Alike (c'.write s) :=
  ⟨congrArg (·.push (.raw s)) h.pieces, h.count, h.depth⟩

theorem enter (h : c.Alike c') : c.enter.Alike c'.enter :=
  ⟨h.pieces, h.count, congrArg (· + 1) h.depth⟩

theorem leave (h : c.Alike c') : c.leave.Alike c'.leave :=
  ⟨h.pieces, h.count, congrArg (· - 1) h.depth⟩

/-- Which value is bound does not matter. -/
theorem bind (h : c.Alike c') (p p' : Parameter) : (c.bind p).Alike (c'.bind p') := by
  refine ⟨?_, ?_, h.depth⟩
  · rw [Context.bind, Context.bind, h.pieces, h.count]
  · rw [Context.bind, Context.bind, Array.size_push, Array.size_push, h.count]

end Alike

end Context

namespace Outcome

/-- The outcomes are of the same kind, with the same error and with contexts that are alike. -/
inductive Alike : Outcome → Outcome → Prop
  | done {c c' : Context} (h : c.Alike c') : Alike (done c) (done c')
  | failed {e : RenderError} {c c' : Context} (h : c.Alike c') : Alike (failed e c) (failed e c')
  | unfinished : Alike unfinished unfinished

namespace Alike

variable {a b : Outcome}

theorem join {x : Outcome} (h : a.Alike x) (h' : b.Alike x) : a.Alike b := by
  cases h with
  | done h =>
      cases h' with
      | done h' => exact done (h.join h')
  | failed h =>
      cases h' with
      | failed h' => exact failed (h.join h')
  | unfinished =>
      cases h' with
      | unfinished => exact unfinished

theorem andThen {f g : Context → Outcome} (h : a.Alike b)
    (hnext : ∀ c c', c.Alike c' → (f c).Alike (g c')) : (a.andThen f).Alike (b.andThen g) := by
  cases h with
  | done h => exact hnext _ _ h
  | failed h => exact failed h
  | unfinished => exact unfinished

theorem orElse {f g : RenderError → Context → Outcome} (h : a.Alike b)
    (hnext : ∀ e c c', c.Alike c' → (f e c).Alike (g e c')) : (a.orElse f).Alike (b.orElse g) := by
  cases h with
  | done h => exact done h
  | failed h => exact hnext _ _ _ h
  | unfinished => exact unfinished

theorem leave (h : a.Alike b) : a.leave.Alike b.leave := by
  cases h with
  | done h => exact done h.leave
  | failed h => exact failed h.leave
  | unfinished => exact unfinished

end Alike

end Outcome

/-- The caller goes the same way from contexts that are alike. -/
def Caller.Respects (call : Caller) : Prop :=
  ∀ family n c c', c.Alike c' → (call family n c).Alike (call family n c')

mutual

theorem Step.run_alike {o : Options} (hmode : o.paramsMode = true) {call : Caller}
    (hcall : call.Respects) (f : Literal → Literal) (step : Step) (c c' : Context)
    (h : c.Alike c') :
    (step.run o call c).Alike ((step.relabel (.literals f)).run o call c') := by
  cases step with
  | text s =>
      rw [Step.relabel, Step.run, Step.run]
      exact .done (h.write s)
  | ident i =>
      rw [Step.relabel, Step.run, Step.run]
      exact .done (h.write _)
  | literal l =>
      rw [Step.relabel, Step.run, Step.run, Context.literal, Context.literal, if_pos hmode,
        if_pos hmode]
      exact .done (h.bind _ _)
  | guarded body =>
      have hdepth : c.enter.depth = c'.enter.depth := h.enter.depth
      rw [Step.relabel, Step.run, Step.run, hdepth]
      by_cases hlimit : o.maxDepth < c'.enter.depth
      · rw [if_pos hlimit, if_pos hlimit]
        exact .failed h.enter
      · rw [if_neg hlimit, if_neg hlimit]
        exact (Script.run_alike hmode hcall f body c.enter c'.enter h.enter).leave
  | custom family node =>
      rw [Step.relabel, Step.run, Step.run]
      exact hcall family node c c' h
  | fail e =>
      rw [Step.relabel, Step.run, Step.run]
      exact .failed h
  | attempt body rescue =>
      rw [Step.relabel, Step.run_attempt, Step.run_attempt]
      exact (Script.run_alike hmode hcall f body c c' h).orElse fun e c c' h =>
        Script.run_alike hmode hcall f (rescue e) c c' h
  | inspect next =>
      rw [Step.relabel, Step.run, Step.run, h.sql]
      exact Script.run_alike hmode hcall f (next ⟨o, c'.sql⟩) c c' h

theorem Script.run_alike {o : Options} (hmode : o.paramsMode = true) {call : Caller}
    (hcall : call.Respects) (f : Literal → Literal) (s : List Step) (c c' : Context)
    (h : c.Alike c') :
    (Script.run o call c s).Alike (Script.run o call c' (Script.relabel (.literals f) s)) := by
  cases s with
  | nil =>
      rw [Script.relabel, Script.run, Script.run]
      exact .done h
  | cons step steps =>
      rw [Script.relabel, Script.run_cons, Script.run_cons]
      have hstep := Step.run_alike hmode hcall f step c c' h
      exact hstep.andThen fun c c' h => Script.run_alike hmode hcall f steps c c' h

end

/-- Scripts that differ in literals only go the same way from contexts that are alike. -/
theorem Script.run_alike_of_blank {o : Options} (hmode : o.paramsMode = true) {call : Caller}
    (hcall : call.Respects) {s s' : Script} (hblank : relabel .blank s = relabel .blank s')
    {c c' : Context} (h : c.Alike c') : (run o call c s).Alike (run o call c' s') := by
  have hs := run_alike hmode hcall (fun _ => .null) s c c' h
  have hs' := run_alike hmode hcall (fun _ => .null) s' c' c' (.refl c')
  rw [← Relabeling.blank, hblank] at hs
  exact hs.join hs'

/-- Handlers run the same script from both contexts, and the nodes inside it call handlers in turn. -/
theorem Registry.respects (r : Registry) {o : Options} (hmode : o.paramsMode = true) (calls : Nat) :
    (r.call o calls).Respects := by
  induction calls with
  | zero =>
      intro family node c c' h
      cases hfind : r.find? node.kind with
      | none =>
          rw [call_missing o family c 0 hfind, call_missing o family c' 0 hfind]
          exact .failed h
      | some handler =>
          rw [call_exhausted o family c hfind, call_exhausted o family c' hfind]
          exact .unfinished
  | succ calls ih =>
      intro family node c c' h
      cases hfind : r.find? node.kind with
      | none =>
          rw [call_missing o family c _ hfind, call_missing o family c' _ hfind]
          exact .failed h
      | some handler =>
          rw [call_found o family c calls hfind, call_found o family c' calls hfind]
          exact Script.run_alike_of_blank hmode ih rfl h

namespace Tree

/-- The tree with `NULL` in place of its literals, those that dialect nodes carry excepted. -/
def blank (t : Tree) : Tree :=
  t.relabel .blank

/-- Runs of trees that differ in literals only. -/
theorem run_alike {r : Renderer} (hmode : r.options.paramsMode = true) {t t' : Tree}
    (hblank : t.blank = t'.blank) : (r.run {} t.script).Alike (r.run {} t'.script) := by
  have hscript : Script.relabel .blank t.script = Script.relabel .blank t'.script := by
    rw [← script_relabel, ← script_relabel, ← blank, hblank, blank]
  exact Script.run_alike_of_blank hmode (r.handlers.respects hmode r.callLimit) hscript (.refl {})

/-- Where literals are bound, trees that differ in literals only halt alike, or they render to the
same text with the same number of values. They are logged alike, unless the values are logged. -/
theorem report_eq_of_blank (r : Renderer) (hmode : r.options.paramsMode = true) (t t' : Tree)
    (hblank : t.blank = t'.blank) :
    ((∃ halt, (t.report r).result = .error halt ∧ (t'.report r).result = .error halt) ∨
        ∃ a a', (t.report r).result = .ok a ∧ (t'.report r).result = .ok a' ∧
          a.sql = a'.sql ∧ a.params.length = a'.params.length) ∧
      (r.options.logLevel ≠ .detailed → (t.report r).events = (t'.report r).events) := by
  have hkind : t.kind = t'.kind := by
    rw [← kind_relabel .blank, ← blank, hblank, blank, kind_relabel]
  have hrun := run_alike hmode hblank
  rw [report_eq, report_eq, hkind]
  simp only [Renderer.report, Renderer.render]
  generalize r.run {} t.script = outcome at hrun ⊢
  generalize r.run {} t'.script = outcome' at hrun ⊢
  cases hrun with
  | @done c c' h =>
      have hsql : (Renderer.finish c).sql = (Renderer.finish c').sql := h.sql
      have hlength : (Renderer.finish c).params.length = (Renderer.finish c').params.length := by
        rw [Renderer.finish, Array.length_toList, h.count, ← Array.length_toList]
        rfl
      refine ⟨.inr ⟨_, _, rfl, rfl, hsql, hlength⟩, ?_⟩
      intro hlevel
      dsimp only
      cases hl : r.options.logLevel with
      | off => rfl
      | basic => rw [Event.ofRendering, Event.ofRendering, hsql, hlength]
      | detailed => exact absurd hl hlevel
  | failed h => exact ⟨.inl ⟨_, rfl, rfl⟩, fun _ => rfl⟩
  | unfinished => exact ⟨.inl ⟨_, rfl, rfl⟩, fun _ => rfl⟩

/-- A handler that writes how long the text is sees the same length before either literal. -/
theorem report_eq_of_blank_length :
    let r : Renderer :=
      { options := { paramsMode := true, logLevel := .basic }
        handlers := ({} : Registry).register "length" fun _ =>
          [.inspect fun seen => [.text (toString seen.sql.length)]] }
    let t (l : Literal) := expr (.binary (.literal l) .add (.custom ⟨"length", 0, .unit⟩))
    r.options.paramsMode = true ∧ (t (.string "secret")).blank = (t .null).blank ∧
      (∃ a a', ((t (.string "secret")).report r).result = .ok a ∧
        ((t .null).report r).result = .ok a' ∧ a.sql = a'.sql ∧
        a.params.length = a'.params.length) ∧
      ((t (.string "secret")).report r).events = ((t .null).report r).events := by
  intro r t
  obtain ⟨hresult, hevents⟩ :=
    report_eq_of_blank r rfl (t (.string "secret")) (t .null) rfl
  refine ⟨rfl, rfl, hresult.resolve_left ?_, hevents nofun⟩
  rintro ⟨halt, h, -⟩
  cases h

end Tree

end TypedSql
