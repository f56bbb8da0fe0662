import TypedSql.Run
import TypedSql.Journal
import TypedSql.Script.Statement

/-! Renderers. A renderer is fixed once it is built, and each rendering has a context of its own, so
that placeholders start at one again. -/

namespace TypedSql

/-- The result of a rendering. The value `params[i]` belongs to the placeholder `$i+1`. -/
structure Rendered where
  sql : String
  params : List Parameter

namespace Rendered

/-- The bound values in their JSON form. -/
def paramsJson (r : Rendered) : List JsonValue :=
  r.params.map Parameter.toJson

/-- The text and the values. -/
def parts (r : Rendered) : String × List Parameter :=
  (r.sql, r.params)

end Rendered

/-- Why a rendering has no result. -/
inductive Halt where
  | error (e : RenderError)
  /-- Handlers called each other more deeply than the renderer allows. -/
  | callLimit
  deriving DecidableEq, Inhabited

/-- A result together with the events that were logged on the way to it. -/
structure Report (α : Type) where
  result : Except Halt α
  events : List Event

namespace Report

/-- Continues a report that has a result. A halt ends it, with the events so far. -/
def andThen {α β : Type} (r : Report α) (next : α → Report β) : Report β :=
  match r.result with
  | .error h => ⟨.error h, r.events⟩
  | .ok a =>
    let rest := next a
    ⟨rest.result, r.events ++ rest.events⟩

/-- Changes the result and keeps the events. -/
def map {α β : Type} (f : α → β) (r : Report α) : Report β :=
  ⟨r.result.map f, r.events⟩

end Report

structure Renderer where
  options : Options := {}
  handlers : Registry := {}
  /-- How many calls of handlers may be open at once. -/
  callLimit : Nat := 1000000

namespace Renderer

/-- A renderer that binds literals, and otherwise has the default options and no handlers. -/
def binding : Renderer :=
  { options := { paramsMode := true } }

/-- Runs a script on a context. -/
def run (r : Renderer) (c : Context) (s : Script) : Outcome :=
  Script.run r.options (r.handlers.call r.options r.callLimit) c s

/-- The result of a context. -/
def finish (c : Context) : Rendered :=
  ⟨c.sql, c.params.toList⟩

/-- Runs a script on a fresh context. -/
def render (r : Renderer) (s : Script) : Except Halt Rendered :=
  match r.run {} s with
  | .done c => .ok (finish c)
  | .failed e _ => .error (.error e)
  | .unfinished => .error .callLimit

/-- Renders a script and logs it under a kind. -/
def report (r : Renderer) (kind : String) (s : Script) : Report Rendered :=
  let result := r.render s
  let level := r.options.logLevel
  ⟨result, match result with
    | .ok a => Event.ofRendering level kind a.sql a.params none
    | .error (.error e) => Event.ofFailure level kind e
    | .error .callLimit => []⟩

def expr (r : Renderer) (e : Expr) : Report Rendered :=
  r.report "Expr" e.script

def query (r : Renderer) (q : Query) : Report Rendered :=
  r.report "Query" q.script

def select (r : Renderer) (s : Select) : Report Rendered :=
  r.report "Select" s.script

def source (r : Renderer) (s : RowSource) : Report Rendered :=
  r.report "Table" s.script

def statement (r : Renderer) (s : Statement) : Report Rendered :=
  r.report s.kind s.script

end Renderer

end TypedSql
