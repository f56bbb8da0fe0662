import Mathlib.Data.List.Forall2
import TypedSql.Batch
import TypedSql.Proofs.Growth
import TypedSql.Proofs.Tree

/-! Batches are rendered step by step. Each step is rendered as it is alone, the first halt ends the
batch, and the events are those of the steps so far. -/

namespace TypedSql

namespace Report

variable {α β γ : Type}

theorem ok_andThen (a : α) (next : α → Report β) : andThen ⟨.ok a, []⟩ next = next a :=
  rfl

theorem andThen_assoc (x : Report α) (f : α → Report β) (g : β → Report γ) :
    (x.andThen f).andThen g = x.andThen fun a => (f a).andThen g := by
  obtain ⟨result, events⟩ := x
  cases result with
  | error halt => rfl
  | ok a =>
      simp only [andThen]
      cases (f a).result with
      | error halt => rfl
      | ok b => simp only [List.append_assoc]

theorem map_map (x : Report α) (f : α → β) (g : β → γ) : (x.map f).map g = x.map fun a => g (f a) := by
  obtain ⟨result, events⟩ := x
  cases result <;> rfl

theorem map_id (x : Report α) : (x.map fun a => a) = x := by
  obtain ⟨result, events⟩ := x
  cases result <;> rfl

theorem map_andThen (x : Report α) (f : α → β) (next : β → Report γ) :
    (x.map f).andThen next = x.andThen fun a => next (f a) := by
  obtain ⟨result, events⟩ := x
  cases result <;> rfl

theorem andThen_map (x : Report α) (next : α → Report β) (f : β → γ) :
    (x.andThen next).map f = x.andThen fun a => (next a).map f := by
  obtain ⟨result, events⟩ := x
  cases result <;> rfl

end Report

/-- The placeholders of the text count from one, and there are as many as values. -/
def Rendered.CountsFromOne (a : Rendered) : Prop :=
  ∃ pieces : List Piece, a.sql = Piece.join pieces ∧
    pieces.filterMap Piece.index? = List.range' 1 a.params.length

/-- Each rendering has a context of its own, so its placeholders count from one. -/
theorem Renderer.countsFromOne_of_render {r : Renderer} {s : Script} {a : Rendered}
    (h : r.render s = .ok a) : a.CountsFromOne := by
  obtain ⟨c, hc, rfl⟩ := Renderer.render_eq_ok.1 h
  have hcontext : (r.run {} s).context? = some c := by
    rw [hc]
    rfl
  have hgains := Script.run_gains (r.handlers.gains r.options r.callLimit) s {} c hcontext
  refine ⟨c.pieces.toList, Context.sql_eq_join c, ?_⟩
  rw [hgains.pieces, finish, hgains.params]
  exact Token.index_pieces _ 0

/-- The rendering of a step alone. -/
def BatchStep.report (r : Renderer) (step : BatchStep) : Report Rendered :=
  r.statement step.statement

namespace Batch

variable {r : Renderer} {step : BatchStep} {steps : List BatchStep}

/-- The events of steps that are each rendered alone. -/
def events (r : Renderer) (steps : List BatchStep) : List Event :=
  steps.flatMap fun step => (step.report r).events

/-- The steps stop at one: those before it have results, and it halts. -/
structure HaltsAt (r : Renderer) (before : List BatchStep) (step : BatchStep) (halt : Halt) : Prop where
  ok_of_mem : ∀ s ∈ before, ∃ a, (s.report r).result = .ok a
  halts : (step.report r).result = .error halt

theorem reportSteps_cons_ok {a : Rendered} (h : (step.report r).result = .ok a) :
    reportSteps r (step :: steps) = ⟨(reportSteps r steps).result.map (a :: ·),
      (step.report r).events ++ (reportSteps r steps).events⟩ := by
  rw [BatchStep.report] at h
  rw [reportSteps, Report.andThen, h]
  rfl

theorem reportSteps_cons_error {halt : Halt} (h : (step.report r).result = .error halt) :
    reportSteps r (step :: steps) = ⟨.error halt, (step.report r).events⟩ := by
  rw [BatchStep.report] at h
  rw [reportSteps, Report.andThen, h]
  rfl

/-- Steps that have results alone have them together, in the same order, and all are logged. -/
theorem reportSteps_of_forall₂ {as : List Rendered}
    (h : List.Forall₂ (fun step a => (BatchStep.report r step).result = .ok a) steps as) :
    reportSteps r steps = ⟨.ok as, events r steps⟩ := by
  induction h with
  | nil => rfl
  | cons hstep _ ih =>
      rw [reportSteps_cons_ok hstep, ih]
      rfl

/-- Where a step halts, the batch halts with it: the steps after it are not rendered. -/
theorem reportSteps_of_haltsAt {before : List BatchStep} {halt : Halt}
    (h : HaltsAt r before step halt) (after : List BatchStep) :
    reportSteps r (before ++ step :: after) = ⟨.error halt, events r (before ++ [step])⟩ := by
  obtain ⟨hbefore, hhalt⟩ := h
  induction before with
  | nil =>
      rw [List.nil_append, reportSteps_cons_error hhalt]
      exact congrArg _ (List.append_nil _).symm
  | cons first before ih =>
      rw [List.forall_mem_cons] at hbefore
      obtain ⟨⟨a, ha⟩, hbefore⟩ := hbefore
      rw [List.cons_append, reportSteps_cons_ok ha, ih hbefore]
      rfl

/-- Steps all have results, or some first one halts. -/
theorem forall₂_or_haltsAt (r : Renderer) (steps : List BatchStep) :
    (∃ as, List.Forall₂ (fun step a => (BatchStep.report r step).result = .ok a) steps as) ∨
      ∃ before step after halt, steps = before ++ step :: after ∧ HaltsAt r before step halt := by
  induction steps with
  | nil => exact .inl ⟨[], .nil⟩
  | cons first steps ih =>
      cases hfirst : (first.report r).result with
      | error halt => exact .inr ⟨[], first, steps, halt, rfl, by simp, hfirst⟩
      | ok a =>
          rcases ih with ⟨as, has⟩ | ⟨before, step, after, halt, rfl, hbefore, hhalt⟩
          · exact .inl ⟨a :: as, .cons hfirst has⟩
          · refine .inr ⟨first :: before, step, after, halt, rfl, ?_, hhalt⟩
            rw [List.forall_mem_cons]
            exact ⟨⟨a, hfirst⟩, hbefore⟩

theorem result_eq_ok_iff {as : List Rendered} : (reportSteps r steps).result = .ok as ↔
    List.Forall₂ (fun step a => (BatchStep.report r step).result = .ok a) steps as := by
  constructor
  · intro h
    rcases forall₂_or_haltsAt r steps with ⟨as', has⟩ | ⟨before, step, after, halt, rfl, hhalts⟩
    · rw [reportSteps_of_forall₂ has] at h
      cases h
      exact has
    · rw [reportSteps_of_haltsAt hhalts] at h
      cases h
  · intro h
    rw [reportSteps_of_forall₂ h]

theorem result_eq_error_iff {halt : Halt} : (reportSteps r steps).result = .error halt ↔
    ∃ before step after, steps = before ++ step :: after ∧ HaltsAt r before step halt := by
  constructor
  · intro h
    rcases forall₂_or_haltsAt r steps with ⟨as, has⟩ | ⟨before, step, after, halt', hsteps, hhalts⟩
    · rw [reportSteps_of_forall₂ has] at h
      cases h
    · rw [hsteps, reportSteps_of_haltsAt hhalts] at h
      cases h
      exact ⟨before, step, after, hsteps, hhalts⟩
  · rintro ⟨before, step, after, rfl, hhalts⟩
    rw [reportSteps_of_haltsAt hhalts]

theorem forall_countsFromOne {as : List Rendered}
    (h : List.Forall₂ (fun step a => (BatchStep.report r step).result = .ok a) steps as) :
    ∀ a ∈ as, a.CountsFromOne := by
  induction h with
  | nil => simp
  | cons hstep _ ih =>
      rw [List.forall_mem_cons]
      exact ⟨Renderer.countsFromOne_of_render hstep, ih⟩

theorem exists_forall₂_iff : (∃ as,
    List.Forall₂ (fun step a => (BatchStep.report r step).result = .ok a) steps as) ↔
      ∀ step ∈ steps, ∃ a, (BatchStep.report r step).result = .ok a := by
  induction steps with
  | nil => exact ⟨fun _ => by simp, fun _ => ⟨[], .nil⟩⟩
  | cons step steps ih =>
      rw [List.forall_mem_cons, ← ih]
      constructor
      · rintro ⟨as, h⟩
        cases h with
        | cons hstep hsteps => exact ⟨⟨_, hstep⟩, _, hsteps⟩
      · rintro ⟨⟨a, hstep⟩, as, hsteps⟩
        exact ⟨a :: as, .cons hstep hsteps⟩

/-- Only the statements of steps are looked at. -/
theorem reportSteps_congr {steps' : List BatchStep}
    (h : steps.map BatchStep.statement = steps'.map BatchStep.statement) :
    reportSteps r steps = reportSteps r steps' := by
  induction steps generalizing steps' with
  | nil =>
      rw [List.map_eq_nil_iff.1 h.symm]
  | cons step steps ih =>
      cases steps' with
      | nil => cases h
      | cons step' steps' =>
          rw [List.map_cons, List.map_cons, List.cons_eq_cons] at h
          rw [reportSteps, reportSteps, h.1, ih h.2]

/-- Steps behind others are rendered where those have results. -/
theorem reportSteps_append (r : Renderer) (steps steps' : List BatchStep) :
    reportSteps r (steps ++ steps') =
      (reportSteps r steps).andThen fun as => (reportSteps r steps').map (as ++ ·) := by
  induction steps with
  | nil =>
      rw [reportSteps, Report.ok_andThen]
      exact (Report.map_id _).symm
  | cons step steps ih =>
      calc reportSteps r (step :: steps ++ steps')
          = (step.report r).andThen fun a => (reportSteps r (steps ++ steps')).map (a :: ·) := rfl
        _ = (step.report r).andThen fun a => (reportSteps r steps).andThen fun as =>
              (reportSteps r steps').map fun as' => a :: (as ++ as') := by
            simp only [ih, Report.andThen_map, Report.map_map]
        _ = (step.report r).andThen fun a => ((reportSteps r steps).map (a :: ·)).andThen fun as =>
              (reportSteps r steps').map (as ++ ·) := by
            simp only [Report.map_andThen, List.cons_append]
        _ = (reportSteps r (step :: steps)).andThen fun as => (reportSteps r steps').map (as ++ ·) :=
            (Report.andThen_assoc _ _ _).symm

/-- A batch is rendered step by step. It has a result where all its steps have results alone, and then
its entries are those results in their order, with placeholders that count from one each time. Else it
halts with the first step that halts. The events are those of the lone renderings, up to and with the
step that halts. The pairs and the script are made of the entries and halt alike. Descriptions have no
influence, and a batch behind another one is rendered if that one has a result. -/
theorem render_steps (r : Renderer) (b : Batch) :
    ((∃ as, (b.render r).result = .ok as) ↔
      ∀ step ∈ b.steps, ∃ a, (BatchStep.report r step).result = .ok a) ∧
    (∀ as, (b.render r).result = .ok as →
      List.Forall₂ (fun step a => (BatchStep.report r step).result = .ok a) b.steps as ∧
      (∀ a ∈ as, a.CountsFromOne) ∧ (b.render r).events = events r b.steps ∧
      b.renderParts r = ⟨.ok (as.map fun a => (a.sql, a.params)), events r b.steps⟩ ∧
      b.renderScript r = ⟨.ok (String.join (as.map fun a => a.sql ++ ";\n")), events r b.steps⟩) ∧
    (∀ halt, (b.render r).result = .error halt → ∃ before step after,
      b.steps = before ++ step :: after ∧ HaltsAt r before step halt ∧
      (b.render r).events = events r (before ++ [step]) ∧
      b.renderParts r = ⟨.error halt, events r (before ++ [step])⟩ ∧
      b.renderScript r = ⟨.error halt, events r (before ++ [step])⟩) ∧
    (∀ b' : Batch, b'.steps.map BatchStep.statement = b.steps.map BatchStep.statement →
      b'.render r = b.render r ∧ b'.renderParts r = b.renderParts r ∧
      b'.renderScript r = b.renderScript r) ∧
    ∀ b' : Batch, (Batch.mk (b.steps ++ b'.steps)).render r =
      (b.render r).andThen fun as => (b'.render r).map (as ++ ·) := by
  refine ⟨?_, ?_, ?_, ?_, fun b' => reportSteps_append r b.steps b'.steps⟩
  · rw [← exists_forall₂_iff]
    exact exists_congr fun as => result_eq_ok_iff
  · intro as h
    have hsteps := result_eq_ok_iff.1 h
    have hrender : b.render r = ⟨.ok as, events r b.steps⟩ := reportSteps_of_forall₂ hsteps
    refine ⟨hsteps, ?_, ?_, ?_, ?_⟩
    · exact forall_countsFromOne hsteps
    · rw [hrender]
    · rw [renderParts, hrender]
      rfl
    · rw [renderScript, hrender]
      rfl
  · intro halt h
    obtain ⟨before, step, after, hsteps, hhalts⟩ := result_eq_error_iff.1 h
    have hrender : b.render r = ⟨.error halt, events r (before ++ [step])⟩ := by
      rw [render, hsteps, reportSteps_of_haltsAt hhalts]
    refine ⟨before, step, after, hsteps, hhalts, ?_, ?_, ?_⟩
    · rw [hrender]
    · rw [renderParts, hrender]
      rfl
    · rw [renderScript, hrender]
      rfl
  · intro b' h
    have hrender : b'.render r = b.render r := reportSteps_congr h
    rw [renderParts, renderParts, renderScript, renderScript, hrender]
    exact ⟨rfl, rfl, rfl⟩

/-- Two steps that bind a value each, and the same with a step between them that halts. In the first batch
both texts count from one, and describing a step changes nothing. Of the second batch the last step is
neither rendered nor logged. -/
theorem render_steps_deletes :
    let r : Renderer := { options := { paramsMode := true, logLevel := .basic } }
    let remove (n : Int) : Statement := .delete
      { table := .simple "t"
        filter := some (.binary (.ident "a") .eq (.literal (.integer n))) }
    let bad : Statement := .query
      { select := { items := [⟨.custom ⟨"unknown", 0, .unit⟩, none⟩] } }
    let e : RenderError := .unsupportedExtension "Expr" "unknown"
    let sql := "DELETE FROM \"t\" WHERE \"a\" = $1"
    let done : Event := .rendered "Delete" sql 1 none
    let finished := ofList [remove 1, remove 2]
    let described : Batch := ⟨[⟨remove 1, some "the first"⟩, ⟨remove 2, none⟩]⟩
    let halting := ofList [remove 1, bad, remove 2]
    ((finished.render r).result = .ok [⟨sql, [.integer 1]⟩, ⟨sql, [.integer 2]⟩] ∧
      (∀ step ∈ finished.steps, ∃ a, (BatchStep.report r step).result = .ok a) ∧
      Rendered.CountsFromOne ⟨sql, [.integer 1]⟩ ∧ Rendered.CountsFromOne ⟨sql, [.integer 2]⟩ ∧
      (finished.render r).events = [done, done] ∧
      finished.renderParts r = ⟨.ok [(sql, [.integer 1]), (sql, [.integer 2])], [done, done]⟩ ∧
      finished.renderScript r = ⟨.ok (sql ++ ";\n" ++ (sql ++ ";\n")), [done, done]⟩) ∧
    (described.steps.map BatchStep.statement = finished.steps.map BatchStep.statement ∧
      described.render r = finished.render r ∧
      described.renderScript r = finished.renderScript r) ∧
    (halting.render r).result = .error (.error e) ∧
      ∃ before step after, halting.steps = before ++ step :: after ∧
        HaltsAt r before step (.error e) ∧
        (halting.render r).events = [done, .failed "Query" e] ∧
        halting.renderParts r = ⟨.error (.error e), [done, .failed "Query" e]⟩ ∧
        halting.renderScript r = ⟨.error (.error e), [done, .failed "Query" e]⟩ := by
  intro r remove bad e sql done finished described halting
  have hfinished : (finished.render r).result = .ok [⟨sql, [.integer 1]⟩, ⟨sql, [.integer 2]⟩] := rfl
  have hdone : events r finished.steps = [done, done] := rfl
  have hhalting : (halting.render r).result = .error (.error e) := rfl
  have hfailed : (halting.render r).events = [done, .failed "Query" e] := rfl
  obtain ⟨hall, hok, -, hsame, -⟩ := render_steps r finished
  obtain ⟨-, hcounts, hevents, hparts, hscript⟩ := hok _ hfinished
  rw [hdone] at hevents hparts hscript
  rw [List.forall_mem_cons, List.forall_mem_singleton] at hcounts
  obtain ⟨hrender, -, hdescribed⟩ := hsame described rfl
  obtain ⟨-, -, herror, -, -⟩ := render_steps r halting
  obtain ⟨before, step, after, hsteps, hhalts, hlog, hpairs, htext⟩ := herror _ hhalting
  rw [← hlog, hfailed] at hpairs htext
  exact ⟨⟨hfinished, hall.1 ⟨_, hfinished⟩, hcounts.1, hcounts.2, hevents, hparts, hscript⟩,
    ⟨rfl, hrender, hdescribed⟩, hhalting, before, step, after, hsteps, hhalts, hfailed, hpairs, htext⟩

end Batch

end TypedSql
