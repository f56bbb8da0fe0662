import TypedSql.Syntax
import TypedSql.Error
import TypedSql.Options

/-! Scripts. A tree is not written at once: it is laid out as a script, a list of steps, and a run of
the script writes the text, binds the values and keeps count of the depth. The steps are also all
that the handler of a dialect's node can do. -/

namespace TypedSql

/-- What a step can see of the run that it is part of. -/
structure Snapshot where
  options : Options
  /-- The text so far. -/
  sql : String

inductive Step where
  /-- Writes a text as it is. -/
  | text (s : String)
  /-- Writes a quoted identifier. -/
  | ident (i : Ident)
  /-- Writes a literal, or binds its value and writes the placeholder. -/
  | literal (l : Literal)
  /-- Runs the body one level deeper, if the limit allows it. -/
  | guarded (body : List Step)
  /-- Runs the handler of a node. The family names the place of the node in the tree. -/
  | custom (family : String) (node : Extension)
  | fail (e : RenderError)
  /-- Runs the body, and where it fails goes on as the error says. Nothing is taken back. -/
  | attempt (body : List Step) (rescue : RenderError → List Step)
  /-- Goes on as the state of the run says. -/
  | inspect (next : Snapshot → List Step)

abbrev Script := List Step

namespace Script

/-- The parts with commas between them. -/
def commas (parts : List Script) : Script :=
  [Step.text ", "].intercalate parts

/-- Identifiers with dots between them. -/
def chain (segments : List Ident) : Script :=
  [Step.text "."].intercalate (segments.map fun i => [.ident i])

/-- Identifiers in brackets, with commas between them. -/
def idents (is : List Ident) : Script :=
  .text "(" :: (commas (is.map fun i => [.ident i]) ++ [.text ")"])

/-- Identifiers in brackets after a space, or nothing if there are none. -/
def columns (is : List Ident) : Script :=
  if is.isEmpty then [] else .text " " :: idents is

/-- Segments with dots between them. There have to be two at least. -/
def compound (segments : List Ident) : Script :=
  if segments.length < 2 then
    [.fail (.malformedTree "CompoundIdent" s!"expected at least 2 segments, got {segments.length}")]
  else chain segments

/-- A number in brackets, if there is one. -/
def precision : Option Nat → Script
  | none => []
  | some p => [.text s!"({p})"]

end Script

def Name.script : Name → Script
  | simple ident => [.ident ident]
  | compound segments => Script.compound segments

/-- The slot of a node: a space and the extension, or nothing. -/
def Extension.slot (family : String) : Option Extension → Script
  | none => []
  | some node => [.text " ", .custom family node]

namespace DataType

/-- Precision and scale in brackets. A scale needs a precision. -/
def scaled (keyword : String) : Option Nat → Option Nat → Script
  | some p, some s => [.text keyword, .text s!"({p}, {s})"]
  | none, some _ =>
    [.text keyword, .fail (.malformedTree "DataType" s!"{keyword} scale given without a precision")]
  | p, none => .text keyword :: Script.precision p

/-- The suffix of a type with a time zone. -/
def zone (zoned : Bool) : Script :=
  if zoned then [.text " WITH TIME ZONE"] else []

def script : DataType → Script
  | char length => .text "CHAR" :: Script.precision length
  | varchar length => .text "VARCHAR" :: Script.precision length
  | text => [.text "TEXT"]
  | numeric p s => scaled "NUMERIC" p s
  | decimal p s => scaled "DECIMAL" p s
  | smallint => [.text "SMALLINT"]
  | integer => [.text "INTEGER"]
  | bigint => [.text "BIGINT"]
  | float p => .text "FLOAT" :: Script.precision p
  | real => [.text "REAL"]
  | doublePrecision => [.text "DOUBLE PRECISION"]
  | boolean => [.text "BOOLEAN"]
  | date => [.text "DATE"]
  | time p zoned => .text "TIME" :: (Script.precision p ++ zone zoned)
  | timestamp p zoned => .text "TIMESTAMP" :: (Script.precision p ++ zone zoned)
  | custom node => [.custom "DataType" node]

end DataType

def JoinKind.script : JoinKind → Script
  | inner => [.text "INNER"]
  | left => [.text "LEFT OUTER"]
  | right => [.text "RIGHT OUTER"]
  | full => [.text "FULL OUTER"]
  | custom node => [.custom "JoinKind" node]

end TypedSql
