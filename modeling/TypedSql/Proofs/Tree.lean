import TypedSql.Renderer
import TypedSql.Proofs.Layout.Statement

/-! The trees that a renderer takes, and what is read off their sites. -/

namespace TypedSql

/-- A rendering succeeds with what the run of its script has left. -/
theorem Renderer.render_eq_ok {r : Renderer} {s : Script} {a : Rendered} :
    r.render s = .ok a ↔ ∃ c, r.run {} s = .done c ∧ a = finish c := by
  rw [render]
  cases r.run {} s with
  | done c =>
      constructor
      · intro h
        cases h
        exact ⟨c, rfl, rfl⟩
      · rintro ⟨c', hc, rfl⟩
        cases hc
        rfl
  | failed e c => exact ⟨nofun, nofun⟩
  | unfinished => exact ⟨nofun, nofun⟩

inductive Tree where
  | expr (e : Expr)
  | query (q : Query)
  | select (s : Select)
  | source (s : RowSource)
  | statement (s : Statement)

namespace Tree

/-- The kind of a tree, as logs name it. -/
def kind : Tree → String
  | expr _ => "Expr"
  | query _ => "Query"
  | select _ => "Select"
  | source _ => "Table"
  | statement s => s.kind

def script : Tree → Script
  | expr e => e.script
  | query q => q.script
  | select s => s.script
  | source s => s.script
  | statement s => s.script

def sites : Tree → List Site
  | expr e => e.sites
  | query q => q.sites
  | select s => s.sites
  | source s => s.sites
  | statement s => s.sites

/-- The rendering of a tree. -/
def report (r : Renderer) : Tree → Report Rendered
  | expr e => r.expr e
  | query q => r.query q
  | select s => r.select s
  | source s => r.source s
  | statement s => r.statement s

theorem report_eq (r : Renderer) (t : Tree) : t.report r = r.report t.kind t.script := by
  cases t <;> rfl

theorem report_result (r : Renderer) (t : Tree) : (t.report r).result = r.render t.script := by
  rw [report_eq]
  rfl

theorem layout (t : Tree) : Layout t.sites t.script := by
  cases t with
  | expr e => exact e.layout
  | query q => exact q.layout
  | select s => exact s.layout
  | source s => exact s.layout
  | statement s => exact s.layout

end Tree

end TypedSql
