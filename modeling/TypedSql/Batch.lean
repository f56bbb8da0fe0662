import TypedSql.Renderer
import TypedSql.Equality

/-! Batches: statements that belong together, such as the definitions of a schema. Each statement is
rendered on its own, and the first one that fails ends the batch. -/

namespace TypedSql

/-- A statement of a batch, with a note for readers. -/
structure BatchStep where
  statement : Statement
  description : Option String := none
  deriving BEq

structure Batch where
  steps : List BatchStep := []

namespace Batch

/-- The batch of given statements. -/
def ofList (statements : List Statement) : Batch :=
  ⟨statements.map fun s => { statement := s }⟩

/-- Appends a step. -/
def push (b : Batch) (step : BatchStep) : Batch :=
  ⟨b.steps ++ [step]⟩

def size (b : Batch) : Nat :=
  b.steps.length

def isEmpty (b : Batch) : Bool :=
  b.steps.isEmpty

/-- Renders steps in their order, up to the first one that halts. -/
def reportSteps (r : Renderer) : List BatchStep → Report (List Rendered)
  | [] => ⟨.ok [], []⟩
  | step :: steps =>
    (r.statement step.statement).andThen fun a => (reportSteps r steps).map (a :: ·)

/-- Renders all statements. -/
def render (r : Renderer) (b : Batch) : Report (List Rendered) :=
  reportSteps r b.steps

/-- Renders all statements to pairs of text and values. -/
def renderParts (r : Renderer) (b : Batch) : Report (List (String × List Parameter)) :=
  (b.render r).map (List.map Rendered.parts)

/-- The script of rendered statements: each ends in a semicolon and a line end. -/
def script (statements : List Rendered) : String :=
  String.join (statements.map fun s => s.sql ++ ";\n")

/-- Renders all statements to one script. Bound values are left out, so this is meant for renderers
that write literals. -/
def renderScript (r : Renderer) (b : Batch) : Report String :=
  (b.render r).map script

end Batch

end TypedSql
