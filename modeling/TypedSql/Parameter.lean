import TypedSql.Literal
import TypedSql.Json.Number
import TypedSql.Text.Escaped

/-! The values that stand behind placeholders, and their forms in JSON and in logs. -/

namespace TypedSql

/-- A bound value. -/
inductive Parameter where
  | null
  | bool (b : Bool)
  | string (s : String)
  | integer (n : Int)
  | float (x : Double)
  /-- A number by its exact text. -/
  | numeric (text : String)
  deriving BEq, Inhabited

namespace Parameter

/-- The value of a literal. -/
def ofLiteral : Literal → Parameter
  | .null => null
  | .bool b => bool b
  | .string s => string s
  | .integer n => integer n
  | .float x => float x
  | .numeral text => numeric text

/-- The value of an optional one: nothing is null. -/
def ofOption : Option Parameter → Parameter
  | none => null
  | some p => p

def isNull : Parameter → Bool
  | null => true
  | _ => false

/-- The JSON form. An exact number becomes a JSON number if its text is one, and else a string. A
float that is not finite becomes null. -/
def toJson : Parameter → JsonValue
  | null => .null
  | bool b => .bool b
  | string s => .string s
  | integer n => .number (.integer n)
  | float x => if x.isFinite then .number (.float x) else .null
  | numeric text => match JsonNumber.ofText? text with
    | some n => .number n
    | none => .string text

/-- The form in logs. -/
def logged : Parameter → String
  | null => "Null"
  | bool b => s!"Bool({b})"
  | string s => "String(" ++ Text.escaped s ++ ")"
  | integer n => s!"Integer({n})"
  | float x => "Float(" ++ x.write .log ++ ")"
  | numeric text => "Numeric(" ++ Text.escaped text ++ ")"

end Parameter

end TypedSql
