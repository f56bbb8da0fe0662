import TypedSql.Script.Statement

/-! Other identifiers and literals in the same tree. A relabeling goes through a tree and through its
script alike: the script of a relabeled tree is the relabeled script. Dialect nodes stay as they
are, with all that they carry. -/

namespace TypedSql

/-- New contents for identifiers and literals. -/
structure Relabeling where
  ident : Ident → Ident := id
  literal : Literal → Literal := id

namespace Relabeling

/-- New literals, and the identifiers as they are. -/
def literals (f : Literal → Literal) : Relabeling :=
  { literal := f }

/-- Puts `NULL` in place of every literal. -/
def blank : Relabeling :=
  literals fun _ => .null

end Relabeling

variable (ρ : Relabeling)

def Name.relabel : Name → Name
  | simple i => simple (ρ.ident i)
  | compound segments => compound (segments.map ρ.ident)

mutual

def Expr.relabel : Expr → Expr
  | .ident i => .ident (ρ.ident i)
  | .compound segments => .compound (segments.map ρ.ident)
  | .wildcard => .wildcard
  | .qualifiedWildcard qualifiers => .qualifiedWildcard (qualifiers.map ρ.ident)
  | .binary left op right => .binary left.relabel op right.relabel
  | .unary op operand => .unary op operand.relabel
  | .between e negated low high => .between e.relabel negated low.relabel high.relabel
  | .caseOf operand arms otherwise =>
    .caseOf (Expr.relabelOption operand) (CaseArm.relabelList arms) (Expr.relabelOption otherwise)
  | .cast e type => .cast e.relabel type
  | .collate e collation => .collate e.relabel (collation.relabel ρ)
  | .existsQuery q => .existsQuery q.relabel
  | .extract field source => .extract field source.relabel
  | .apply function args => .apply function.relabel (Expr.relabelList args)
  | .isNull e negated => .isNull e.relabel negated
  | .inList e list negated => .inList e.relabel (Expr.relabelList list) negated
  | .inQuery e q negated => .inQuery e.relabel q.relabel negated
  | .literal l => .literal (ρ.literal l)
  | .paren e => .paren e.relabel
  | .subquery q => .subquery q.relabel
  | .custom node => .custom node

def Expr.relabelList : List Expr → List Expr
  | [] => []
  | e :: es => e.relabel :: Expr.relabelList es

def Expr.relabelOption : Option Expr → Option Expr
  | none => none
  | some e => some e.relabel

def CaseArm.relabelList : List CaseArm → List CaseArm
  | [] => []
  | ⟨condition, result⟩ :: arms =>
    ⟨condition.relabel, result.relabel⟩ :: CaseArm.relabelList arms

def Query.relabel : Query → Query
  | ⟨ctes, select, setOps, orderBy, limit, offset, ext⟩ =>
    ⟨Cte.relabelList ctes, select.relabel, SetOp.relabelList setOps, OrderKey.relabelList orderBy,
      Expr.relabelOption limit, Expr.relabelOption offset, ext⟩

def Cte.relabelList : List Cte → List Cte
  | [] => []
  | ⟨name, columns, query, ext⟩ :: ctes =>
    ⟨ρ.ident name, columns.map ρ.ident, query.relabel, ext⟩ :: Cte.relabelList ctes

def SetOp.relabelList : List SetOp → List SetOp
  | [] => []
  | ⟨operator, all, select, ext⟩ :: ops =>
    ⟨operator, all, select.relabel, ext⟩ :: SetOp.relabelList ops

def OrderKey.relabelList : List OrderKey → List OrderKey
  | [] => []
  | ⟨e, direction, nulls, ext⟩ :: keys =>
    ⟨e.relabel, direction, nulls, ext⟩ :: OrderKey.relabelList keys

def Select.relabel : Select → Select
  | ⟨items, source, filter, groupBy, having, ext⟩ =>
    ⟨SelectItem.relabelList items, FromClause.relabelOption source, Expr.relabelOption filter,
      Expr.relabelList groupBy, Expr.relabelOption having, ext⟩

def SelectItem.relabelList : List SelectItem → List SelectItem
  | [] => []
  | ⟨e, label⟩ :: items => ⟨e.relabel, label.map ρ.ident⟩ :: SelectItem.relabelList items

def FromClause.relabelOption : Option FromClause → Option FromClause
  | none => none
  | some ⟨source, joins, ext⟩ => some ⟨source.relabel, Join.relabelList joins, ext⟩

def Join.relabelList : List Join → List Join
  | [] => []
  | ⟨kind, source, on, ext⟩ :: joins =>
    ⟨kind, source.relabel, on.relabel, ext⟩ :: Join.relabelList joins

def RowSource.relabel : RowSource → RowSource
  | .table name => .table (name.relabel ρ)
  | .derived q label => .derived q.relabel (ρ.ident label)
  | .function e label => .function e.relabel (ρ.ident label)
  | .custom node => .custom node

end

def DefaultValue.relabel : DefaultValue → DefaultValue
  | literal l => literal (ρ.literal l)
  | d => d

def Unique.relabel (u : Unique) : Unique :=
  { u with columns := u.columns.map ρ.ident }

def Reference.relabel (r : Reference) : Reference :=
  { r with
    referring := r.referring.map ρ.ident
    table := r.table.relabel ρ
    columns := r.columns.map ρ.ident }

def ColumnRule.relabel : ColumnRule → ColumnRule
  | notNull => notNull
  | unique u => unique (u.relabel ρ)
  | references r => references (r.relabel ρ)
  | check condition => check (condition.relabel ρ)
  | custom node => custom node

def TableRule.relabel : TableRule → TableRule
  | unique u => unique (u.relabel ρ)
  | references r => references (r.relabel ρ)
  | check condition => check (condition.relabel ρ)
  | custom node => custom node

def DomainRule.relabel (r : DomainRule) : DomainRule :=
  ⟨r.condition.relabel ρ⟩

/-- A constraint, given how its rule is relabeled. -/
def Constraint.relabelWith {Rule : Type} (rule : Rule → Rule) (c : Constraint Rule) :
    Constraint Rule :=
  { c with name := c.name.map ρ.ident, rule := rule c.rule }

def ColumnType.relabel : ColumnType → ColumnType
  | type t => type t
  | domain name => domain (name.relabel ρ)

def Column.relabel (c : Column) : Column :=
  { c with
    name := ρ.ident c.name
    type := c.type.relabel ρ
    default := c.default.map (DefaultValue.relabel ρ)
    constraints := c.constraints.map (Constraint.relabelWith ρ (ColumnRule.relabel ρ))
    collation := c.collation.map (Name.relabel ρ) }

def TableDef.relabel (d : TableDef) : TableDef :=
  { d with
    name := d.name.relabel ρ
    columns := d.columns.map (Column.relabel ρ)
    constraints := d.constraints.map (Constraint.relabelWith ρ (TableRule.relabel ρ)) }

def ViewDef.relabel (d : ViewDef) : ViewDef :=
  { d with
    name := d.name.relabel ρ
    columns := d.columns.map ρ.ident
    query := d.query.relabel ρ }

def DomainDef.relabel (d : DomainDef) : DomainDef :=
  { d with
    name := d.name.relabel ρ
    default := d.default.map (DefaultValue.relabel ρ)
    constraints := d.constraints.map (Constraint.relabelWith ρ (DomainRule.relabel ρ))
    collation := d.collation.map (Name.relabel ρ) }

def Privilege.relabel : Privilege → Privilege
  | insert columns => insert (columns.map (List.map ρ.ident))
  | update columns => update (columns.map (List.map ρ.ident))
  | references columns => references (columns.map (List.map ρ.ident))
  | p => p

def Grant.relabel (g : Grant) : Grant :=
  { g with
    privileges := g.privileges.map (List.map (Privilege.relabel ρ))
    object := g.object.relabel ρ
    grantees := g.grantees.map (List.map ρ.ident) }

def Revoke.relabel (r : Revoke) : Revoke :=
  { r with
    privileges := r.privileges.map (List.map (Privilege.relabel ρ))
    object := r.object.relabel ρ
    grantees := r.grantees.map (List.map ρ.ident) }

def SchemaElement.relabel : SchemaElement → SchemaElement
  | table d => table (d.relabel ρ)
  | view d => view (d.relabel ρ)
  | domain d => domain (d.relabel ρ)
  | grant g => grant (g.relabel ρ)

def SchemaDef.relabel (d : SchemaDef) : SchemaDef :=
  { d with
    name := d.name.relabel ρ
    authorization := d.authorization.map ρ.ident
    characterSet := d.characterSet.map (Name.relabel ρ)
    elements := d.elements.map (SchemaElement.relabel ρ) }

def TableChange.relabel : TableChange → TableChange
  | addColumn column => addColumn (column.relabel ρ)
  | alterColumn column (.set value) => alterColumn (ρ.ident column) (.set (value.relabel ρ))
  | alterColumn column .drop => alterColumn (ρ.ident column) .drop
  | dropColumn column behavior => dropColumn (ρ.ident column) behavior
  | addConstraint constraint => addConstraint (constraint.relabelWith ρ (TableRule.relabel ρ))
  | dropConstraint name behavior => dropConstraint (ρ.ident name) behavior

def AlterTable.relabel (a : AlterTable) : AlterTable :=
  { a with name := a.name.relabel ρ, change := a.change.relabel ρ }

def DomainChange.relabel : DomainChange → DomainChange
  | setDefault value => setDefault (value.relabel ρ)
  | dropDefault => dropDefault
  | addConstraint constraint => addConstraint (constraint.relabelWith ρ (DomainRule.relabel ρ))
  | dropConstraint name => dropConstraint (ρ.ident name)

def AlterDomain.relabel (a : AlterDomain) : AlterDomain :=
  { a with name := a.name.relabel ρ, change := a.change.relabel ρ }

def Drop.relabel (d : Drop) : Drop :=
  { d with name := d.name.relabel ρ }

def Cell.relabel : Cell → Cell
  | value e => value (e.relabel ρ)
  | default => default

def InsertRows.relabel : InsertRows → InsertRows
  | values rows => values (rows.map (List.map (Cell.relabel ρ)))
  | query q => query (q.relabel ρ)
  | defaultValues => defaultValues

def Insert.relabel (i : Insert) : Insert :=
  { i with
    table := i.table.relabel ρ
    columns := i.columns.map ρ.ident
    rows := i.rows.relabel ρ }

def Assignment.relabel (a : Assignment) : Assignment :=
  ⟨ρ.ident a.column, a.value.relabel ρ⟩

def Update.relabel (u : Update) : Update :=
  { u with
    table := u.table.relabel ρ
    assignments := u.assignments.map (Assignment.relabel ρ)
    filter := Expr.relabelOption ρ u.filter }

def Delete.relabel (d : Delete) : Delete :=
  { d with table := d.table.relabel ρ, filter := Expr.relabelOption ρ d.filter }

def Statement.relabel : Statement → Statement
  | query q => query (q.relabel ρ)
  | createSchema d => createSchema (d.relabel ρ)
  | createTable d => createTable (d.relabel ρ)
  | createView d => createView (d.relabel ρ)
  | createDomain d => createDomain (d.relabel ρ)
  | grant g => grant (g.relabel ρ)
  | revoke r => revoke (r.relabel ρ)
  | alterTable a => alterTable (a.relabel ρ)
  | alterDomain a => alterDomain (a.relabel ρ)
  | drop d => drop (d.relabel ρ)
  | insert i => insert (i.relabel ρ)
  | update u => update (u.relabel ρ)
  | delete d => delete (d.relabel ρ)

end TypedSql
