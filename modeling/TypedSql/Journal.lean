import TypedSql.Options
import TypedSql.Parameter
import TypedSql.Error
import TypedSql.Text.Fitting

/-! The log of renderings, as a list of events. How much of a rendering is logged depends on the
level; where the events go is up to the caller. -/

namespace TypedSql

inductive Event where
  /-- A rendering was finished. The time that it took is in microseconds, where it is known. -/
  | rendered (kind sql : String) (params : Nat) (elapsed : Option Nat)
  /-- A finished rendering bound a value. -/
  | bound (kind : String) (index : Nat) (value : Parameter)
  /-- A rendering failed. -/
  | failed (kind : String) (error : RenderError)
  deriving Inhabited

namespace Event

/-- The target of all events. -/
def target : String := "sqltree::render"

/-- The severity of an event. -/
def severity : Event → String
  | failed _ _ => "WARN"
  | _ => "DEBUG"

def message : Event → String
  | rendered .. => "rendered statement"
  | bound _ index value => s!"param ${index}: {value.logged}"
  | failed .. => "render failed"

/-- The fields of an event besides its message. Times are kept in 64 bits. -/
def fields : Event → List (String × String)
  | rendered kind sql params elapsed =>
    [("kind", kind), ("sql", sql), ("params", toString params)]
      ++ elapsed.toList.map fun us => ("elapsed_us", toString (us % Nat.pow 2 64))
  | bound kind _ _ => [("kind", kind)]
  | failed kind error => [("kind", kind), ("error", error.message)]

/-- An event as a record of texts. -/
def record (e : Event) : List (String × String) :=
  [("level", e.severity), ("target", target), ("message", e.message)] ++ e.fields

/-- The most bytes of SQL text that the basic level shows. -/
def sqlLimit : Nat := 1000

/-- The events of a finished rendering. -/
def ofRendering (level : LogLevel) (kind sql : String) (params : List Parameter)
    (elapsed : Option Nat) : List Event :=
  match level with
  | .off => []
  | .basic => [rendered kind (Text.fitting sqlLimit sql) params.length elapsed]
  | .detailed =>
    rendered kind sql params.length elapsed
      :: params.mapIdx fun i value => bound kind (i + 1) value

/-- The events of a failed rendering. -/
def ofFailure (level : LogLevel) (kind : String) (error : RenderError) : List Event :=
  if level < .basic then [] else [failed kind error]

end Event

end TypedSql
