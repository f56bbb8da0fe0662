import TypedSql.Parameter

/-! The state of a rendering: the text so far, the values bound so far, and the depth. -/

namespace TypedSql

/-- A piece of the text: written as it is, or the placeholder of a bound value. -/
inductive Piece where
  | raw (s : String)
  | placeholder (index : Nat)
  deriving DecidableEq, Inhabited

def Piece.text : Piece → String
  | raw s => s
  | placeholder index => s!"${index}"

structure Context where
  pieces : Array Piece := #[]
  params : Array Parameter := #[]
  /-- How many guards are open. -/
  depth : Nat := 0
  deriving Inhabited

namespace Context

/-- The text so far. -/
def sql (c : Context) : String :=
  c.pieces.foldl (fun s p => s ++ p.text) ""

/-- Appends a text. -/
def write (c : Context) (s : String) : Context :=
  { c with pieces := c.pieces.push (.raw s) }

/-- Binds a value and appends its placeholder. Placeholders count from one. -/
def bind (c : Context) (p : Parameter) : Context :=
  { c with pieces := c.pieces.push (.placeholder (c.params.size + 1)), params := c.params.push p }

@[simp] theorem sql_write (c : Context) (s : String) : (c.write s).sql = c.sql ++ s := by
  simp [sql, write, Piece.text]

@[simp] theorem sql_bind (c : Context) (p : Parameter) :
    (c.bind p).sql = c.sql ++ (Piece.placeholder (c.params.size + 1)).text := by
  simp [sql, bind]

/-- Opens a guard. -/
def enter (c : Context) : Context :=
  { c with depth := c.depth + 1 }

/-- Closes a guard. -/
def leave (c : Context) : Context :=
  { c with depth := c.depth - 1 }

end Context

end TypedSql
