import TypedSql.Syntax

/-! Definitions of tables, views, domains and schemas, with their columns, defaults and constraints,
and the granting of privileges. The parts are kept as they are given: whether a column list may be
empty is up to whoever builds the tree. -/

namespace TypedSql

/-- When a constraint is checked. -/
structure CheckTime where
  deferred : Bool
  deferrable : Bool
  ext : Option Extension := none

/-- A constraint of some family with its name and check time, which may both be missing. -/
structure Constraint (Rule : Type) where
  name : Option Ident := none
  rule : Rule
  checkTime : Option CheckTime := none
  ext : Option Extension := none

/-- A `UNIQUE` or `PRIMARY KEY` rule. On a column the list of columns is usually empty. -/
structure Unique where
  primaryKey : Bool
  columns : List Ident
  ext : Option Extension := none

/-- A `REFERENCES` rule. Without referring columns it belongs to a single column, and without
target columns it means the primary key of the table. -/
structure Reference where
  referring : List Ident := []
  table : Name
  columns : List Ident
  matchType : MatchType := .regular
  onUpdate : Option ReferentialAction := none
  onDelete : Option ReferentialAction := none
  ext : Option Extension := none

/-- The rules that a column may have. -/
inductive ColumnRule where
  | notNull
  | unique (u : Unique)
  | references (r : Reference)
  | check (condition : Expr)
  | custom (node : Extension)

/-- The rules that a table may have. -/
inductive TableRule where
  | unique (u : Unique)
  | references (r : Reference)
  | check (condition : Expr)
  | custom (node : Extension)

/-- The rule of a domain: a condition on its values. -/
structure DomainRule where
  condition : Expr

/-- The value of a `DEFAULT` clause. -/
inductive DefaultValue where
  | literal (l : Literal)
  | currentDate
  | currentTime (precision : Option Nat)
  | currentTimestamp (precision : Option Nat)
  | user
  | currentUser
  | sessionUser
  | systemUser
  | null

/-- What a column holds: values of a data type or of a domain. -/
inductive ColumnType where
  | type (t : DataType)
  | domain (name : Name)

/-- A column of a table. -/
structure Column where
  name : Ident
  type : ColumnType
  default : Option DefaultValue := none
  constraints : List (Constraint ColumnRule) := []
  collation : Option Name := none
  ext : Option Extension := none

/-- A table to be created. -/
structure TableDef where
  name : Name
  mode : TableMode := .persistent
  columns : List Column
  constraints : List (Constraint TableRule) := []
  onCommit : Option OnCommit := none
  ext : Option Extension := none

/-- A view to be created. -/
structure ViewDef where
  name : Name
  columns : List Ident := []
  query : Query
  checkOption : Option CheckOption := none
  ext : Option Extension := none

/-- A domain to be created. -/
structure DomainDef where
  name : Name
  type : DataType
  default : Option DefaultValue := none
  constraints : List (Constraint DomainRule) := []
  collation : Option Name := none
  ext : Option Extension := none

/-- A privilege, for some of them with the columns that it is about. -/
inductive Privilege where
  | select
  | delete
  | usage
  | insert (columns : Option (List Ident))
  | update (columns : Option (List Ident))
  | references (columns : Option (List Ident))
  deriving DecidableEq

namespace Privilege

def keyword : Privilege → String
  | select => "SELECT"
  | delete => "DELETE"
  | usage => "USAGE"
  | insert _ => "INSERT"
  | update _ => "UPDATE"
  | references _ => "REFERENCES"

/-- The columns that are written with the privilege: an empty list counts as none. -/
def columns? : Privilege → Option (List Ident)
  | insert columns | update columns | references columns => columns.filter (!·.isEmpty)
  | _ => none

end Privilege

/-- A grant. Without privileges it grants all of them, and without grantees it is public. -/
structure Grant where
  privileges : Option (List Privilege)
  object : Name
  objectKind : ObjectKind
  grantees : Option (List Ident) := none
  grantOption : Bool := false
  ext : Option Extension := none

/-- A revocation. With `grantOption` only the right to grant further is taken back. -/
structure Revoke where
  privileges : Option (List Privilege)
  object : Name
  objectKind : ObjectKind
  grantees : Option (List Ident) := none
  grantOption : Bool := false
  behavior : DropBehavior
  ext : Option Extension := none

/-- A definition inside a schema. -/
inductive SchemaElement where
  | table (d : TableDef)
  | view (d : ViewDef)
  | domain (d : DomainDef)
  | grant (g : Grant)

/-- A schema to be created. -/
structure SchemaDef where
  name : Name
  authorization : Option Ident := none
  characterSet : Option Name := none
  elements : List SchemaElement := []
  ext : Option Extension := none

end TypedSql
