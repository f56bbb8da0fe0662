import TypedSql.Statement

/-! Shorthands for building trees. -/

namespace TypedSql

/-- Makes a time or timestamp type one with a time zone. Other types stay as they are. -/
def DataType.withTimeZone : DataType → DataType
  | time p _ => time p true
  | timestamp p _ => timestamp p true
  | other => other

namespace Expr

/-- A name as a reference: simple or qualified. -/
def ofName : Name → Expr
  | .simple i => ident i
  | .compound segments => compound segments

def and (a b : Expr) : Expr := binary a .and b

def or (a b : Expr) : Expr := binary a .or b

def eq (a b : Expr) : Expr := binary a .eq b

def gt (a b : Expr) : Expr := binary a .gt b

def lt (a b : Expr) : Expr := binary a .lt b

def not (e : Expr) : Expr := unary .not e

/-- A function application with a plain identifier as the name. -/
def call (function : Ident) (args : List Expr) : Expr := apply (ident function) args

end Expr

/-- A table by its unqualified name. -/
def RowSource.named (name : Ident) : RowSource := table (.simple name)

namespace FromClause

/-- Appends a join. -/
def join (f : FromClause) (j : Join) : FromClause :=
  { f with joins := f.joins ++ [j] }

/-- Appends a join of a kind. -/
def joinOn (f : FromClause) (kind : JoinKind) (source : RowSource) (on : Expr) : FromClause :=
  f.join { kind, source, on }

end FromClause

namespace Select

/-- `SELECT *`. -/
def star : Select := { items := [{ expr := .wildcard }] }

/-- Takes the rows from a source, without joins. -/
def fromSource (s : Select) (source : RowSource) : Select :=
  { s with source := some { source } }

end Select

namespace Query

/-- The query of a select alone. -/
def ofSelect (select : Select) : Query := { select }

/-- Appends a common table expression. -/
def withCte (q : Query) (c : Cte) : Query :=
  { q with ctes := q.ctes ++ [c] }

/-- Appends a set operation. -/
def withSetOp (q : Query) (op : SetOp) : Query :=
  { q with setOps := q.setOps ++ [op] }

/-- Appends a set operation with a select. -/
def combine (q : Query) (operator : SetOperator) (select : Select) (all : Bool) : Query :=
  q.withSetOp { operator, all, select }

end Query

namespace Column

/-- Appends a constraint. -/
def withConstraint (c : Column) (constraint : Constraint ColumnRule) : Column :=
  { c with constraints := c.constraints ++ [constraint] }

/-- Appends an unnamed constraint. -/
def withRule (c : Column) (rule : ColumnRule) : Column :=
  c.withConstraint { rule }

def notNull (c : Column) : Column := c.withRule .notNull

def primaryKey (c : Column) : Column := c.withRule (.unique { primaryKey := true, columns := [] })

def unique (c : Column) : Column := c.withRule (.unique { primaryKey := false, columns := [] })

end Column

/-- Appends a constraint. -/
def TableDef.withConstraint (d : TableDef) (constraint : Constraint TableRule) : TableDef :=
  { d with constraints := d.constraints ++ [constraint] }

/-- Appends a constraint. -/
def DomainDef.withConstraint (d : DomainDef) (constraint : Constraint DomainRule) : DomainDef :=
  { d with constraints := d.constraints ++ [constraint] }

/-- Appends an element. -/
def SchemaDef.withElement (d : SchemaDef) (element : SchemaElement) : SchemaDef :=
  { d with elements := d.elements ++ [element] }

/-- The insertion of a single row of expressions. -/
def Insert.row (table : Name) (columns : List Ident) (cells : List Expr) : Insert :=
  { table, columns, rows := .values [cells.map .value] }

end TypedSql
