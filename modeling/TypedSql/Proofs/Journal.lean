import TypedSql.Proofs.Act
import TypedSql.Proofs.Fitting
import TypedSql.Proofs.Tree

/-! The SQL text in the log. A finished rendering shows it once: as it is at the detailed level, and as
much of it as is allowed at the basic one. The level decides about nothing but the log, so both levels
show texts of one rendering. -/

namespace TypedSql

/-! ### What events show -/

namespace Event

/-- The SQL texts that events show. -/
def sqls (events : List Event) : List String :=
  events.filterMap fun e => e.fields.lookup "sql"

variable (kind sql : String) (params : List Parameter) (elapsed : Option Nat)

theorem sqls_basic :
    sqls (ofRendering .basic kind sql params elapsed) = [Text.fitting sqlLimit sql] := rfl

/-- The values that the detailed level shows are no fields. -/
theorem sqls_detailed : sqls (ofRendering .detailed kind sql params elapsed) = [sql] := by
  have hvalues : sqls (params.mapIdx fun i value => bound kind (i + 1) value) = [] := by
    rw [sqls, List.filterMap_eq_nil_iff]
    intro e he
    obtain ⟨i, _, rfl⟩ := List.mem_mapIdx.1 he
    rfl
  exact congrArg (sql :: ·) hvalues

/-- The events `long` show the text `sql` and the events `short` a prefix of it, of so many bytes at
most. -/
def Shorten (limit : Nat) (sql : String) (short long : List Event) : Prop :=
  ∃ q, sqls short = [q] ∧ sqls long = [sql] ∧ q.toList <+: sql.toList ∧ q.utf8ByteSize ≤ limit

theorem shorten_ofRendering : Shorten sqlLimit sql (ofRendering .basic kind sql params elapsed)
    (ofRendering .detailed kind sql params elapsed) := by
  have hlongest := Text.longest_fitting sqlLimit sql
  exact ⟨_, sqls_basic kind sql params elapsed, sqls_detailed kind sql params elapsed,
    hlongest.start, hlongest.size_le⟩

end Event

/-- A rendering that succeeds logs its text and its values. -/
theorem Renderer.events_of_ok {r : Renderer} {kind : String} {s : Script} {a : Rendered}
    (h : (r.report kind s).result = .ok a) :
    (r.report kind s).events = Event.ofRendering r.options.logLevel kind a.sql a.params none := by
  have hresult : r.render s = .ok a := h
  rw [report, hresult]

/-! ### What does not depend on the level -/

/-- The options with another level of the log. -/
def Options.withLevel (o : Options) (level : LogLevel) : Options :=
  { o with logLevel := level }

/-- The renderer with another level of the log. -/
def Renderer.withLevel (r : Renderer) (level : LogLevel) : Renderer :=
  { r with options := r.options.withLevel level }

mutual

/-- What the step sees of the level of the log does not matter to it. -/
def Step.Unaware : Step → Prop
  | .guarded body => Script.Unaware body
  | .attempt body rescue => Script.Unaware body ∧ ∀ e, Script.Unaware (rescue e)
  | .inspect next => ∀ seen, Script.Unaware (next seen) ∧
      ∀ level, next { seen with options := seen.options.withLevel level } = next seen
  | _ => True

def Script.Unaware : List Step → Prop
  | [] => True
  | step :: steps => step.Unaware ∧ Script.Unaware steps

end

theorem Layout.unaware {sites : List Site} {s : Script} (h : Layout sites s) :
    Script.Unaware s := by
  induction h with
  | nil => exact trivial
  | guarded _ _ _ ihbody ih => exact ⟨ihbody, ih⟩
  | text _ _ ih | operator _ ih | ident _ _ ih | literal _ _ ih | short _ ih | unscaled _ ih
  | node _ ih => exact ⟨trivial, ih⟩

mutual

theorem Step.run_withLevel (o : Options) (level : LogLevel) (call : Caller) (step : Step)
    (hstep : step.Unaware) (c : Context) :
    step.run (o.withLevel level) call c = step.run o call c := by
  cases step with
  | guarded body =>
      rw [Step.Unaware] at hstep
      rw [Step.run, Step.run, Script.run_withLevel o level call body hstep c.enter]
      rfl
  | attempt body rescue =>
      rw [Step.Unaware] at hstep
      have hrescue (e : RenderError) (c : Context) :
          Script.run (o.withLevel level) call c (rescue e) = Script.run o call c (rescue e) :=
        Script.run_withLevel o level call (rescue e) (hstep.2 e) c
      rw [Step.run_attempt, Step.run_attempt, Script.run_withLevel o level call body hstep.1 c]
      simp only [hrescue]
  | inspect next =>
      rw [Step.Unaware] at hstep
      obtain ⟨hnext, hblind⟩ := hstep ⟨o, c.sql⟩
      have hsame : next ⟨o.withLevel level, c.sql⟩ = next ⟨o, c.sql⟩ := hblind level
      rw [Step.run, Step.run, hsame]
      exact Script.run_withLevel o level call _ hnext c
  | literal l =>
      rw [Step.run, Step.run]
      rfl
  | text s | ident i | custom family node | fail e => rw [Step.run, Step.run]

theorem Script.run_withLevel (o : Options) (level : LogLevel) (call : Caller) (s : List Step)
    (hs : Script.Unaware s) (c : Context) :
    Script.run (o.withLevel level) call c s = Script.run o call c s := by
  cases s with
  | nil => rw [Script.run_nil, Script.run_nil]
  | cons step steps =>
      rw [Script.Unaware] at hs
      have hrest (c : Context) :
          Script.run (o.withLevel level) call c steps = Script.run o call c steps :=
        Script.run_withLevel o level call steps hs.2 c
      rw [Script.run_cons, Script.run_cons, Step.run_withLevel o level call step hs.1 c]
      simp only [hrest]

end

theorem Registry.call_withLevel {r : Registry} (hr : r.Every Script.Unaware) (o : Options)
    (level : LogLevel) (calls : Nat) : r.call (o.withLevel level) calls = r.call o calls := by
  funext family node c
  refine r.call_induction o (P := fun calls family node c outcome _ =>
    r.call (o.withLevel level) calls family node c = outcome) ?_ ?_ ?_ calls family node c
  · intro calls family node c hfind
    exact call_missing _ family c calls hfind
  · intro family node c handler hfind
    exact call_exhausted _ family c hfind
  · intro calls ih family node c handler hfind
    have hcall : r.call (o.withLevel level) calls = r.call o calls := by
      funext family node c
      exact ih family node c
    rw [call_found _ family c calls hfind, hcall]
    exact Script.run_withLevel o level _ (handler node) (hr node.kind handler hfind node) c

/-- The level of the log decides nothing about the result of a rendering. -/
theorem Renderer.render_withLevel {r : Renderer} (hr : r.handlers.Every Script.Unaware)
    (level : LogLevel) {s : Script} (hs : Script.Unaware s) :
    (r.withLevel level).render s = r.render s := by
  have hrun : (r.withLevel level).run {} s = r.run {} s := by
    have hcall := Registry.call_withLevel hr r.options level r.callLimit
    rw [run, run]
    exact (congrArg (Script.run _ · {} s) hcall).trans
      (Script.run_withLevel r.options level _ s hs {})
  rw [render, render, hrun]

namespace Renderer

/-- Both levels show texts of one rendering. -/
theorem shorten_withLevel {r : Renderer} (hr : r.handlers.Every Script.Unaware) {kind : String}
    {s : Script} (hs : Script.Unaware s) {a : Rendered} (h : (r.report kind s).result = .ok a) :
    Event.Shorten Event.sqlLimit a.sql ((r.withLevel .basic).report kind s).events
      ((r.withLevel .detailed).report kind s).events := by
  have hresult (level : LogLevel) : ((r.withLevel level).report kind s).result = .ok a :=
    (render_withLevel hr level hs).trans h
  rw [events_of_ok (hresult .basic), events_of_ok (hresult .detailed)]
  exact Event.shorten_ofRendering kind a.sql a.params none

/-- The log shortens texts safely and no more than it has to. For every text and every number of bytes
the steps back from there find a boundary without leaving the text, and what stands before it is the
longest prefix of whole characters that takes so many bytes at most: all of a text that fits, and of any
other one all but less than four of the bytes that are allowed. So of every text the basic level shows a
prefix of at most 1000 bytes, where the detailed level shows the text. A rendering that succeeds logs its
own text in this way, and where handlers take no notice of the level, it has the same text at both levels.
Trees never take notice of it. -/
theorem report_shortened :
    (∀ (limit : Nat) (s : String),
      (∃ p, Text.boundary? s limit = some p ∧ p.offset.byteIdx ≤ limit) ∧
      Text.cut? limit s = some (Text.fitting limit s) ∧
      Text.Longest limit s (Text.fitting limit s) ∧
      (s.utf8ByteSize ≤ limit → Text.fitting limit s = s) ∧
      (limit < s.utf8ByteSize → limit < (Text.fitting limit s).utf8ByteSize + 4)) ∧
    (∀ (kind sql : String) (params : List Parameter) (elapsed : Option Nat),
      Event.Shorten 1000 sql (Event.ofRendering .basic kind sql params elapsed)
        (Event.ofRendering .detailed kind sql params elapsed)) ∧
    (∀ (r : Renderer) (kind : String) (s : Script) (a : Rendered),
      (r.report kind s).result = .ok a →
        (r.report kind s).events =
            Event.ofRendering r.options.logLevel kind a.sql a.params none ∧
          (r.handlers.Every Script.Unaware → Script.Unaware s →
            Event.Shorten 1000 a.sql ((r.withLevel .basic).report kind s).events
              ((r.withLevel .detailed).report kind s).events)) ∧
    ∀ t : Tree, Script.Unaware t.script ∧ ∀ r : Renderer, t.report r = r.report t.kind t.script := by
  refine ⟨?_, Event.shorten_ofRendering, ?_, ?_⟩
  · intro limit s
    obtain ⟨p, hp, hle, -⟩ := Text.exists_boundary? s limit
    have hlongest := Text.longest_fitting limit s
    exact ⟨⟨p, hp, hle⟩, Text.cut?_eq_fitting limit s, hlongest, Text.fitting_of_le,
      hlongest.lt_size_add⟩
  · exact fun r kind s a h => ⟨events_of_ok h, fun hr hs => shorten_withLevel hr hs h⟩
  · exact fun t => ⟨t.layout.unaware, fun r => t.report_eq r⟩

/-- A character of two bytes stays whole or goes whole. A handler that asks for the mode takes no notice
of the level. -/
theorem report_shortened_accent :
    let r : Renderer :=
      { options := { logLevel := .basic }
        handlers := ({} : Registry).register "mode" fun _ =>
          [.inspect fun seen => [.text (if seen.options.paramsMode then "?" else "NULL")]] }
    let t := Tree.expr (.binary (.ident "é") .add (.custom ⟨"mode", 0, .unit⟩))
    let a : Rendered := ⟨"\"é\" + NULL", []⟩
    ("é".utf8ByteSize ≤ 2 ∧ Text.fitting 2 "é" = "é") ∧
      (2 < "aé".utf8ByteSize ∧ Text.fitting 2 "aé" = "a" ∧
        2 < (Text.fitting 2 "aé").utf8ByteSize + 4) ∧
      (t.report r).result = .ok a ∧ r.handlers.Every Script.Unaware ∧ Script.Unaware t.script ∧
      (t.report r).events = [.rendered "Expr" "\"é\" + NULL" 0 none] ∧
      Event.Shorten 1000 a.sql (t.report (r.withLevel .basic)).events
        (t.report (r.withLevel .detailed)).events := by
  intro r t a
  have hresult : (r.report t.kind t.script).result = .ok a := rfl
  have hhandlers : r.handlers.Every Script.Unaware := by
    refine (Registry.every_empty _).register "mode" fun _ => ⟨fun _ => ?_, trivial⟩
    exact ⟨⟨trivial, trivial⟩, fun _ => rfl⟩
  obtain ⟨htexts, -, hreport, htree⟩ := report_shortened
  obtain ⟨hevents, hlevels⟩ := hreport r t.kind t.script a hresult
  have hfits : "é".utf8ByteSize ≤ 2 := by decide
  have hlong : 2 < "aé".utf8ByteSize := by decide
  have hshown : Text.fitting Event.sqlLimit a.sql = a.sql :=
    (htexts Event.sqlLimit a.sql).2.2.2.1 (by decide)
  refine ⟨⟨hfits, (htexts 2 "é").2.2.2.1 hfits⟩,
    ⟨hlong, by decide, (htexts 2 "aé").2.2.2.2 hlong⟩, hresult, hhandlers, (htree t).1, ?_,
    hlevels hhandlers (htree t).1⟩
  rw [(htree t).2, hevents, Event.ofRendering, hshown]
  rfl

end Renderer

end TypedSql
