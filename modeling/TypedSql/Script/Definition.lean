import TypedSql.Definition
import TypedSql.Script.Query

/-! The scripts of defaults, constraints, columns, definitions and privileges. None of them is
guarded: only the expressions and queries inside are. -/

namespace TypedSql

def Literal.script (l : Literal) : Script := [.literal l]

namespace DefaultValue

/-- The value after the word `DEFAULT`. -/
def value : DefaultValue → Script
  | literal l => l.script
  | currentDate => [.text "CURRENT_DATE"]
  | currentTime p => .text "CURRENT_TIME" :: Script.precision p
  | currentTimestamp p => .text "CURRENT_TIMESTAMP" :: Script.precision p
  | user => [.text "USER"]
  | currentUser => [.text "CURRENT_USER"]
  | sessionUser => [.text "SESSION_USER"]
  | systemUser => [.text "SYSTEM_USER"]
  | null => [.text "NULL"]

def script (d : DefaultValue) : Script := .text "DEFAULT " :: d.value

/-- An optional default after a space. -/
def clause : Option DefaultValue → Script
  | none => []
  | some d => .text " " :: d.script

end DefaultValue

def Unique.script (u : Unique) : Script :=
  .text (if u.primaryKey then "PRIMARY KEY" else "UNIQUE")
    :: (Script.columns u.columns ++ Extension.slot "UniqueConstraint" u.ext)

/-- An optional action after the words that introduce it. -/
def ReferentialAction.clause (lead : String) : Option ReferentialAction → Script
  | none => []
  | some a => [.text lead, .text a.sql]

def Reference.script (r : Reference) : Script :=
  (if r.referring.isEmpty then []
    else .text "FOREIGN KEY " :: (Script.idents r.referring ++ [.text " "]))
  ++ .text "REFERENCES " :: (r.table.script ++ Script.columns r.columns
  ++ .text r.matchType.sql :: (ReferentialAction.clause " ON UPDATE " r.onUpdate
  ++ ReferentialAction.clause " ON DELETE " r.onDelete
  ++ Extension.slot "ReferenceConstraint" r.ext))

/-- A condition in a `CHECK`. -/
def Expr.check (e : Expr) : Script := [.text "CHECK (", .guarded e.body, .text ")"]

def ColumnRule.script : ColumnRule → Script
  | notNull => [.text "NOT NULL"]
  | unique u => u.script
  | references r => r.script
  | check condition => condition.check
  | custom node => [.custom "ColumnConstraint" node]

def TableRule.script : TableRule → Script
  | unique u => u.script
  | references r => r.script
  | check condition => condition.check
  | custom node => [.custom "TableConstraint" node]

def DomainRule.script (r : DomainRule) : Script := r.condition.check

/-- An optional check time after the constraint. -/
def CheckTime.clause : Option CheckTime → Script
  | none => []
  | some t =>
    .text (if t.deferred then " INITIALLY DEFERRED" else " INITIALLY IMMEDIATE")
      :: .text (if t.deferrable then " DEFERRABLE" else " NOT DEFERRABLE")
      :: Extension.slot "ConstraintCheckTime" t.ext

/-- A constraint, given the script of its rule. -/
def Constraint.scriptWith {Rule : Type} (rule : Rule → Script) (c : Constraint Rule) : Script :=
  (match c.name with | none => [] | some name => [.text "CONSTRAINT ", .ident name, .text " "])
  ++ rule c.rule ++ CheckTime.clause c.checkTime ++ Extension.slot "ConstraintDefinition" c.ext

/-- Constraints, each after a space. -/
def Constraint.clauses {Rule : Type} (rule : Rule → Script) (cs : List (Constraint Rule)) : Script :=
  cs.flatMap fun c => .text " " :: c.scriptWith rule

/-- An optional name after the words that introduce it. -/
def Name.clause (lead : String) : Option Name → Script
  | none => []
  | some name => .text lead :: name.script

def ColumnType.script : ColumnType → Script
  | type t => t.script
  | domain name => name.script

def Column.script (c : Column) : Script :=
  .ident c.name :: .text " " :: (c.type.script ++ DefaultValue.clause c.default
    ++ Constraint.clauses ColumnRule.script c.constraints ++ Name.clause " COLLATE " c.collation
    ++ Extension.slot "ColumnDefinition" c.ext)

def TableDef.script (d : TableDef) : Script :=
  .text "CREATE " :: .text d.mode.sql :: .text " " :: (d.name.script
    ++ .text " (" :: (Script.commas (d.columns.map Column.script
      ++ d.constraints.map (Constraint.scriptWith TableRule.script))
    ++ .text ")" :: ((match d.onCommit with
      | none => []
      | some action => [.text " ON COMMIT ", .text action.sql])
    ++ Extension.slot "TableDefinition" d.ext)))

def ViewDef.script (d : ViewDef) : Script :=
  .text "CREATE VIEW " :: (d.name.script ++ Script.columns d.columns
    ++ .text " AS " :: .guarded d.query.body :: ((match d.checkOption with
      | none => []
      | some option => [.text " WITH ", .text option.sql, .text " CHECK OPTION"])
    ++ Extension.slot "ViewDefinition" d.ext))

def DomainDef.script (d : DomainDef) : Script :=
  .text "CREATE DOMAIN " :: (d.name.script ++ .text " AS " :: (d.type.script
    ++ DefaultValue.clause d.default ++ Constraint.clauses DomainRule.script d.constraints
    ++ Name.clause " COLLATE " d.collation ++ Extension.slot "DomainDefinition" d.ext))

def Privilege.script (p : Privilege) : Script :=
  .text p.keyword :: (match p.columns? with
    | none => []
    | some columns => .text " " :: Script.idents columns)

/-- Privileges, or all of them. -/
def Privilege.list : Option (List Privilege) → Script
  | none => [.text "ALL PRIVILEGES"]
  | some privileges => Script.commas (privileges.map Privilege.script)

/-- The receivers of privileges, or the public. -/
def Script.grantees : Option (List Ident) → Script
  | none => [.text "PUBLIC"]
  | some names => Script.commas (names.map fun i => [.ident i])

/-- The object that privileges are about. -/
def ObjectKind.target (kind : ObjectKind) (object : Name) : Script :=
  .text " ON " :: .text kind.sql :: .text " " :: object.script

def Grant.script (g : Grant) : Script :=
  .text "GRANT " :: (Privilege.list g.privileges ++ g.objectKind.target g.object
    ++ .text " TO " :: (Script.grantees g.grantees
    ++ (if g.grantOption then [.text " WITH GRANT OPTION"] else [])
    ++ Extension.slot "GrantStatement" g.ext))

def Revoke.script (r : Revoke) : Script :=
  .text "REVOKE " :: ((if r.grantOption then [.text "GRANT OPTION FOR "] else [])
    ++ Privilege.list r.privileges ++ r.objectKind.target r.object
    ++ .text " FROM " :: (Script.grantees r.grantees
    ++ .text " " :: .text r.behavior.sql :: Extension.slot "RevokeStatement" r.ext))

def SchemaElement.script : SchemaElement → Script
  | table d => d.script
  | view d => d.script
  | domain d => d.script
  | grant g => g.script

/-- A schema. Its elements are guarded, each after a space. -/
def SchemaDef.script (d : SchemaDef) : Script :=
  .text "CREATE SCHEMA " :: (d.name.script
    ++ (match d.authorization with
      | none => []
      | some owner => [.text " AUTHORIZATION ", .ident owner])
    ++ Name.clause " DEFAULT CHARACTER SET " d.characterSet
    ++ d.elements.flatMap (fun e => [.text " ", .guarded e.script])
    ++ Extension.slot "SchemaDefinition" d.ext)

end TypedSql
