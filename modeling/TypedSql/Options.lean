import TypedSql.Literal

/-! What is fixed for all renderings of a renderer. -/

namespace TypedSql

/-- How much is logged. -/
inductive LogLevel where
  | off
  /-- The kind and the text of each rendering, the number of its values, and failures. -/
  | basic
  /-- All of that, and each bound value. -/
  | detailed
  deriving DecidableEq, Inhabited

namespace LogLevel

def name : LogLevel → String
  | off => "Off"
  | basic => "Basic"
  | detailed => "Detailed"

/-- The place of a level in their order. -/
def rank : LogLevel → Nat
  | off => 0
  | basic => 1
  | detailed => 2

instance : LE LogLevel := ⟨fun a b => a.rank ≤ b.rank⟩

instance : LT LogLevel := ⟨fun a b => a.rank < b.rank⟩

instance (a b : LogLevel) : Decidable (a ≤ b) := inferInstanceAs (Decidable (a.rank ≤ b.rank))

instance (a b : LogLevel) : Decidable (a < b) := inferInstanceAs (Decidable (a.rank < b.rank))

end LogLevel

structure Options where
  /-- Whether literals become placeholders, with their values collected. -/
  paramsMode : Bool := false
  /-- How deep statements, queries, selects, row sources and expressions may nest. -/
  maxDepth : Nat := 256
  escaping : Escaping := .verbatim
  logLevel : LogLevel := .off
  deriving DecidableEq, Inhabited

end TypedSql
