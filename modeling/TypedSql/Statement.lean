import TypedSql.Definition

/-! Statements: queries, definitions, changes of definitions, privileges, and changes of data. -/

namespace TypedSql

/-- A change to the default of a column. -/
inductive DefaultChange where
  | set (value : DefaultValue)
  | drop

/-- The single action of an `ALTER TABLE`. -/
inductive TableChange where
  | addColumn (column : Column)
  | alterColumn (column : Ident) (change : DefaultChange)
  | dropColumn (column : Ident) (behavior : DropBehavior)
  | addConstraint (constraint : Constraint TableRule)
  | dropConstraint (name : Ident) (behavior : DropBehavior)

structure AlterTable where
  name : Name
  change : TableChange
  ext : Option Extension := none

/-- The single action of an `ALTER DOMAIN`. -/
inductive DomainChange where
  | setDefault (value : DefaultValue)
  | dropDefault
  | addConstraint (constraint : Constraint DomainRule)
  | dropConstraint (name : Ident)

structure AlterDomain where
  name : Name
  change : DomainChange
  ext : Option Extension := none

structure Drop where
  kind : DropKind
  name : Name
  behavior : DropBehavior
  ext : Option Extension := none

/-- A value to be stored: an expression, or the default of the column. -/
inductive Cell where
  | value (e : Expr)
  | default

/-- The rows of an `INSERT`. -/
inductive InsertRows where
  | values (rows : List (List Cell))
  | query (q : Query)
  | defaultValues

structure Insert where
  table : Name
  columns : List Ident
  rows : InsertRows
  ext : Option Extension := none

structure Assignment where
  column : Ident
  value : Cell

structure Update where
  table : Name
  assignments : List Assignment
  filter : Option Expr := none
  ext : Option Extension := none

structure Delete where
  table : Name
  filter : Option Expr := none
  ext : Option Extension := none

inductive Statement where
  | query (q : Query)
  | createSchema (d : SchemaDef)
  | createTable (d : TableDef)
  | createView (d : ViewDef)
  | createDomain (d : DomainDef)
  | grant (g : Grant)
  | revoke (r : Revoke)
  | alterTable (a : AlterTable)
  | alterDomain (a : AlterDomain)
  | drop (d : Drop)
  | insert (i : Insert)
  | update (u : Update)
  | delete (d : Delete)

/-- The kind of a statement, as logs name it. -/
def Statement.kind : Statement → String
  | query _ => "Query"
  | createSchema _ => "SchemaDefinition"
  | createTable _ => "TableDefinition"
  | createView _ => "ViewDefinition"
  | createDomain _ => "DomainDefinition"
  | grant _ => "GrantStatement"
  | revoke _ => "RevokeStatement"
  | alterTable _ => "AlterTable"
  | alterDomain _ => "AlterDomain"
  | drop _ => "Drop"
  | insert _ => "Insert"
  | update _ => "Update"
  | delete _ => "Delete"

/-- A schema element as a statement of its own. -/
def SchemaElement.toStatement : SchemaElement → Statement
  | table d => .createTable d
  | view d => .createView d
  | domain d => .createDomain d
  | grant g => .grant g

end TypedSql
