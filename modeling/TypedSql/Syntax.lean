import TypedSql.Name
import TypedSql.Literal
import TypedSql.Keyword

/-! The trees of expressions and queries. The sets of variants are closed: what belongs to a dialect
enters a tree as an `Extension`, either in a `custom` variant or in the `ext` slot of a node, where
it is written after the node. -/

namespace TypedSql

mutual

/-- A node of a dialect: the kind that its handler is registered under, and a payload for that
handler. Copies of a node share its identity, and no two other nodes do. -/
structure Extension where
  kind : String
  identity : Nat
  payload : Payload

/-- What a node of a dialect carries. -/
inductive Payload where
  | unit
  | text (s : String)
  | expr (e : Expr)
  | query (q : Query)

/-- A data type. Lengths and precisions may be left out. -/
inductive DataType where
  | char (length : Option Nat)
  | varchar (length : Option Nat)
  | text
  | numeric (precision scale : Option Nat)
  | decimal (precision scale : Option Nat)
  | smallint
  | integer
  | bigint
  | float (precision : Option Nat)
  | real
  | doublePrecision
  | boolean
  | date
  | time (precision : Option Nat) (zoned : Bool)
  | timestamp (precision : Option Nat) (zoned : Bool)
  | custom (node : Extension)

/-- An expression. Parentheses are never inferred: they are nodes of the tree. -/
inductive Expr where
  | ident (i : Ident)
  /-- A qualified reference, `"t"."c"`. -/
  | compound (segments : List Ident)
  | wildcard
  /-- All columns of a table, `"t".*`. Without a qualifier it is `*`. -/
  | qualifiedWildcard (qualifiers : List Ident)
  | binary (left : Expr) (op : BinaryOp) (right : Expr)
  | unary (op : UnaryOp) (operand : Expr)
  | between (e : Expr) (negated : Bool) (low high : Expr)
  | caseOf (operand : Option Expr) (arms : List CaseArm) (otherwise : Option Expr)
  | cast (e : Expr) (type : DataType)
  | collate (e : Expr) (collation : Name)
  | existsQuery (q : Query)
  | extract (field : DateField) (source : Expr)
  /-- A function application. The name is an expression too. -/
  | apply (function : Expr) (args : List Expr)
  | isNull (e : Expr) (negated : Bool)
  | inList (e : Expr) (list : List Expr) (negated : Bool)
  | inQuery (e : Expr) (q : Query) (negated : Bool)
  | literal (l : Literal)
  | paren (e : Expr)
  | subquery (q : Query)
  | custom (node : Extension)

/-- One `WHEN … THEN …` arm. -/
structure CaseArm where
  condition : Expr
  result : Expr

/-- A select with the clauses around it. The set operations all stand at one level. -/
structure Query where
  ctes : List Cte := []
  select : Select
  setOps : List SetOp := []
  orderBy : List OrderKey := []
  limit : Option Expr := none
  offset : Option Expr := none
  ext : Option Extension := none

/-- A named query of a `WITH` clause. -/
structure Cte where
  name : Ident
  columns : List Ident := []
  query : Query
  ext : Option Extension := none

/-- A single `SELECT` block. -/
structure Select where
  items : List SelectItem := []
  source : Option FromClause := none
  filter : Option Expr := none
  groupBy : List Expr := []
  having : Option Expr := none
  ext : Option Extension := none

/-- An entry of a selection list. -/
structure SelectItem where
  expr : Expr
  label : Option Ident := none

/-- A set operation and the select that it adds. -/
structure SetOp where
  operator : SetOperator
  all : Bool := false
  select : Select
  ext : Option Extension := none

/-- An entry of an `ORDER BY` clause. -/
structure OrderKey where
  expr : Expr
  direction : Option Direction := none
  nulls : Option NullsOrder := none
  ext : Option Extension := none

/-- What rows are taken from. -/
inductive RowSource where
  | table (name : Name)
  | derived (q : Query) (label : Ident)
  | function (e : Expr) (label : Ident)
  | custom (node : Extension)

/-- The kind of a join. The handler of a custom kind writes the words before `JOIN`. -/
inductive JoinKind where
  | inner
  | left
  | right
  | full
  | custom (node : Extension)

/-- A join: its kind, the source that it adds and the condition. -/
structure Join where
  kind : JoinKind
  source : RowSource
  on : Expr
  ext : Option Extension := none

/-- A `FROM` clause: a source and its joins. -/
structure FromClause where
  source : RowSource
  joins : List Join := []
  ext : Option Extension := none

end

/-- The keyword of a data type, without length, precision and zone. A custom type has none. -/
def DataType.keyword? : DataType → Option String
  | char _ => some "CHAR"
  | varchar _ => some "VARCHAR"
  | text => some "TEXT"
  | numeric _ _ => some "NUMERIC"
  | decimal _ _ => some "DECIMAL"
  | smallint => some "SMALLINT"
  | integer => some "INTEGER"
  | bigint => some "BIGINT"
  | float _ => some "FLOAT"
  | real => some "REAL"
  | doublePrecision => some "DOUBLE PRECISION"
  | boolean => some "BOOLEAN"
  | date => some "DATE"
  | time _ _ => some "TIME"
  | timestamp _ _ => some "TIMESTAMP"
  | custom _ => none

/-- The words before `JOIN`. A custom kind has none of its own. -/
def JoinKind.keyword? : JoinKind → Option String
  | inner => some "INNER"
  | left => some "LEFT OUTER"
  | right => some "RIGHT OUTER"
  | full => some "FULL OUTER"
  | custom _ => none

/-- The text of a node that carries one. -/
def Extension.text? (n : Extension) : Option String :=
  match n.payload with
  | .text s => some s
  | _ => none

end TypedSql
