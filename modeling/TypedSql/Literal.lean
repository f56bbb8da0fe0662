import TypedSql.Decimal.Format
import TypedSql.Text.Quoted

/-! Literals, and how they are written into SQL text. -/

namespace TypedSql

/-- A literal value. Numbers are kept as they were supplied: a numeral is never read, so `1.50` and
`1e3` are written as they stand. -/
inductive Literal where
  | null
  | bool (b : Bool)
  | string (s : String)
  | integer (n : Int)
  | float (x : Double)
  | numeral (text : String)
  deriving BEq, Inhabited

/-- What happens to single quotes inside string literals. -/
inductive Escaping where
  /-- They are written as they are. -/
  | verbatim
  /-- They are doubled. -/
  | standard
  deriving DecidableEq, Inhabited

namespace Escaping

/-- The name of a policy. -/
def name : Escaping → String
  | verbatim => "Verbatim"
  | standard => "Standard"

/-- A string literal under a policy. -/
def quote : Escaping → String → String
  | verbatim => Text.enclosed '\''
  | standard => Text.quoted '\''

end Escaping

/-- The SQL text of a literal. -/
def Literal.sql (escaping : Escaping) : Literal → String
  | null => "NULL"
  | bool b => if b then "TRUE" else "FALSE"
  | string s => escaping.quote s
  | integer n => toString n
  | float x => x.write .sql
  | numeral text => text

end TypedSql
