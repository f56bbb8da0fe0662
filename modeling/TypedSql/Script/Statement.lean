import TypedSql.Statement
import TypedSql.Script.Definition

/-! The scripts of statements. A statement is one guarded step. -/

namespace TypedSql

def TableChange.script : TableChange → Script
  | addColumn column => .text "ADD COLUMN " :: column.script
  | alterColumn column (.set value) =>
    .text "ALTER COLUMN " :: .ident column :: .text " SET " :: value.script
  | alterColumn column .drop => [.text "ALTER COLUMN ", .ident column, .text " DROP DEFAULT"]
  | dropColumn column behavior =>
    [.text "DROP COLUMN ", .ident column, .text " ", .text behavior.sql]
  | addConstraint constraint => .text "ADD " :: constraint.scriptWith TableRule.script
  | dropConstraint name behavior =>
    [.text "DROP CONSTRAINT ", .ident name, .text " ", .text behavior.sql]

def AlterTable.script (a : AlterTable) : Script :=
  .text "ALTER TABLE " :: (a.name.script
    ++ .text " " :: (a.change.script ++ Extension.slot "AlterTable" a.ext))

def DomainChange.script : DomainChange → Script
  | setDefault value => .text "SET " :: value.script
  | dropDefault => [.text "DROP DEFAULT"]
  | addConstraint constraint => .text "ADD " :: constraint.scriptWith DomainRule.script
  | dropConstraint name => [.text "DROP CONSTRAINT ", .ident name]

def AlterDomain.script (a : AlterDomain) : Script :=
  .text "ALTER DOMAIN " :: (a.name.script
    ++ .text " " :: (a.change.script ++ Extension.slot "AlterDomain" a.ext))

def Drop.script (d : Drop) : Script :=
  .text "DROP " :: .text d.kind.sql :: .text " " :: (d.name.script
    ++ .text " " :: .text d.behavior.sql :: Extension.slot "Drop" d.ext)

def Cell.script : Cell → Script
  | value e => [.guarded e.body]
  | default => [.text "DEFAULT"]

/-- The cells of a row in brackets. -/
def Cell.row (cells : List Cell) : Script :=
  .text "(" :: (Script.commas (cells.map Cell.script) ++ [.text ")"])

def InsertRows.script : InsertRows → Script
  | values rows => .text " VALUES " :: Script.commas (rows.map Cell.row)
  | query q => [.text " ", .guarded q.body]
  | defaultValues => [.text " DEFAULT VALUES"]

def Insert.script (i : Insert) : Script :=
  .text "INSERT INTO " :: (i.table.script ++ Script.columns i.columns ++ i.rows.script
    ++ Extension.slot "Insert" i.ext)

def Assignment.script (a : Assignment) : Script :=
  .ident a.column :: .text " = " :: a.value.script

def Update.script (u : Update) : Script :=
  .text "UPDATE " :: (u.table.script
    ++ .text " SET " :: (Script.commas (u.assignments.map Assignment.script)
    ++ Expr.clause " WHERE " u.filter ++ Extension.slot "Update" u.ext))

def Delete.script (d : Delete) : Script :=
  .text "DELETE FROM " :: (d.table.script ++ Expr.clause " WHERE " d.filter
    ++ Extension.slot "Delete" d.ext)

namespace Statement

/-- The steps inside the guard of a statement. -/
def body : Statement → Script
  | query q => q.script
  | createSchema d => d.script
  | createTable d => d.script
  | createView d => d.script
  | createDomain d => d.script
  | grant g => g.script
  | revoke r => r.script
  | alterTable a => a.script
  | alterDomain a => a.script
  | drop d => d.script
  | insert i => i.script
  | update u => u.script
  | delete d => d.script

def script (s : Statement) : Script := [.guarded s.body]

end Statement

end TypedSql
