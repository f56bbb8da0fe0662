import TypedSql.Proofs.Tree

/-! Trees without their wrappers. A wrapper is a node of a dialect that stands for an expression and
carries an expression; taking it off puts what it carries into its place. Wrappers may be nested in
what other wrappers carry. Slots, types and all nodes of other kinds stay as they are. -/

namespace TypedSql

variable (kind : String)

mutual

/-- The expression with what is in its wrappers in their places. -/
def Expr.unwrap : Expr → Expr
  | .ident i => .ident i
  | .compound segments => .compound segments
  | .wildcard => .wildcard
  | .qualifiedWildcard qualifiers => .qualifiedWildcard qualifiers
  | .binary left op right => .binary left.unwrap op right.unwrap
  | .unary op operand => .unary op operand.unwrap
  | .between e negated low high => .between e.unwrap negated low.unwrap high.unwrap
  | .caseOf operand arms otherwise =>
    .caseOf (Expr.unwrapOption operand) (CaseArm.unwrapList arms) (Expr.unwrapOption otherwise)
  | .cast e type => .cast e.unwrap type
  | .collate e collation => .collate e.unwrap collation
  | .existsQuery q => .existsQuery q.unwrap
  | .extract field source => .extract field source.unwrap
  | .apply function args => .apply function.unwrap (Expr.unwrapList args)
  | .isNull e negated => .isNull e.unwrap negated
  | .inList e list negated => .inList e.unwrap (Expr.unwrapList list) negated
  | .inQuery e q negated => .inQuery e.unwrap q.unwrap negated
  | .literal l => .literal l
  | .paren e => .paren e.unwrap
  | .subquery q => .subquery q.unwrap
  | .custom ⟨k, identity, .expr e⟩ =>
    if k = kind then e.unwrap else .custom ⟨k, identity, .expr e⟩
  | .custom node => .custom node

def Expr.unwrapList : List Expr → List Expr
  | [] => []
  | e :: es => e.unwrap :: Expr.unwrapList es

def Expr.unwrapOption : Option Expr → Option Expr
  | none => none
  | some e => some e.unwrap

def CaseArm.unwrapList : List CaseArm → List CaseArm
  | [] => []
  | ⟨condition, result⟩ :: arms => ⟨condition.unwrap, result.unwrap⟩ :: CaseArm.unwrapList arms

def Query.unwrap : Query → Query
  | ⟨ctes, select, setOps, orderBy, limit, offset, ext⟩ =>
    ⟨Cte.unwrapList ctes, select.unwrap, SetOp.unwrapList setOps, OrderKey.unwrapList orderBy,
      Expr.unwrapOption limit, Expr.unwrapOption offset, ext⟩

def Cte.unwrapList : List Cte → List Cte
  | [] => []
  | ⟨name, columns, query, ext⟩ :: ctes =>
    ⟨name, columns, query.unwrap, ext⟩ :: Cte.unwrapList ctes

def SetOp.unwrapList : List SetOp → List SetOp
  | [] => []
  | ⟨operator, all, select, ext⟩ :: ops =>
    ⟨operator, all, select.unwrap, ext⟩ :: SetOp.unwrapList ops

def OrderKey.unwrapList : List OrderKey → List OrderKey
  | [] => []
  | ⟨e, direction, nulls, ext⟩ :: keys =>
    ⟨e.unwrap, direction, nulls, ext⟩ :: OrderKey.unwrapList keys

def Select.unwrap : Select → Select
  | ⟨items, source, filter, groupBy, having, ext⟩ =>
    ⟨SelectItem.unwrapList items, FromClause.unwrapOption source, Expr.unwrapOption filter,
      Expr.unwrapList groupBy, Expr.unwrapOption having, ext⟩

def SelectItem.unwrapList : List SelectItem → List SelectItem
  | [] => []
  | ⟨e, label⟩ :: items => ⟨e.unwrap, label⟩ :: SelectItem.unwrapList items

def FromClause.unwrapOption : Option FromClause → Option FromClause
  | none => none
  | some ⟨source, joins, ext⟩ => some ⟨source.unwrap, Join.unwrapList joins, ext⟩

def Join.unwrapList : List Join → List Join
  | [] => []
  | ⟨words, source, on, ext⟩ :: joins =>
    ⟨words, source.unwrap, on.unwrap, ext⟩ :: Join.unwrapList joins

def RowSource.unwrap : RowSource → RowSource
  | .table name => .table name
  | .derived q label => .derived q.unwrap label
  | .function e label => .function e.unwrap label
  | .custom node => .custom node

end

def ColumnRule.unwrap : ColumnRule → ColumnRule
  | check condition => check (condition.unwrap kind)
  | rule => rule

def TableRule.unwrap : TableRule → TableRule
  | check condition => check (condition.unwrap kind)
  | rule => rule

def DomainRule.unwrap (r : DomainRule) : DomainRule :=
  ⟨r.condition.unwrap kind⟩

/-- A constraint with another rule. -/
def Constraint.mapRule {Rule : Type} (f : Rule → Rule) (c : Constraint Rule) : Constraint Rule :=
  { c with rule := f c.rule }

def Column.unwrap (c : Column) : Column :=
  { c with constraints := c.constraints.map (Constraint.mapRule (ColumnRule.unwrap kind)) }

def TableDef.unwrap (d : TableDef) : TableDef :=
  { d with
    columns := d.columns.map (Column.unwrap kind)
    constraints := d.constraints.map (Constraint.mapRule (TableRule.unwrap kind)) }

def ViewDef.unwrap (d : ViewDef) : ViewDef :=
  { d with query := d.query.unwrap kind }

def DomainDef.unwrap (d : DomainDef) : DomainDef :=
  { d with constraints := d.constraints.map (Constraint.mapRule (DomainRule.unwrap kind)) }

def SchemaElement.unwrap : SchemaElement → SchemaElement
  | table d => table (d.unwrap kind)
  | view d => view (d.unwrap kind)
  | domain d => domain (d.unwrap kind)
  | grant g => grant g

def SchemaDef.unwrap (d : SchemaDef) : SchemaDef :=
  { d with elements := d.elements.map (SchemaElement.unwrap kind) }

def TableChange.unwrap : TableChange → TableChange
  | addColumn column => addColumn (column.unwrap kind)
  | addConstraint constraint => addConstraint (constraint.mapRule (TableRule.unwrap kind))
  | change => change

def DomainChange.unwrap : DomainChange → DomainChange
  | addConstraint constraint => addConstraint (constraint.mapRule (DomainRule.unwrap kind))
  | change => change

def Cell.unwrap : Cell → Cell
  | value e => value (e.unwrap kind)
  | default => default

def InsertRows.unwrap : InsertRows → InsertRows
  | values rows => values (rows.map (List.map (Cell.unwrap kind)))
  | query q => query (q.unwrap kind)
  | defaultValues => defaultValues

def Insert.unwrap (i : Insert) : Insert :=
  { i with rows := i.rows.unwrap kind }

def Assignment.unwrap (a : Assignment) : Assignment :=
  { a with value := a.value.unwrap kind }

def Update.unwrap (u : Update) : Update :=
  { u with
    assignments := u.assignments.map (Assignment.unwrap kind)
    filter := Expr.unwrapOption kind u.filter }

def Delete.unwrap (d : Delete) : Delete :=
  { d with filter := Expr.unwrapOption kind d.filter }

/-- Privileges and drops hold no expressions. -/
def Statement.unwrap : Statement → Statement
  | query q => query (q.unwrap kind)
  | createSchema d => createSchema (d.unwrap kind)
  | createTable d => createTable (d.unwrap kind)
  | createView d => createView (d.unwrap kind)
  | createDomain d => createDomain (d.unwrap kind)
  | alterTable a => alterTable { a with change := a.change.unwrap kind }
  | alterDomain a => alterDomain { a with change := a.change.unwrap kind }
  | insert i => insert (i.unwrap kind)
  | update u => update (u.unwrap kind)
  | delete d => delete (d.unwrap kind)
  | s => s

def Tree.unwrap : Tree → Tree
  | expr e => expr (e.unwrap kind)
  | query q => query (q.unwrap kind)
  | select s => select (s.unwrap kind)
  | source s => source (s.unwrap kind)
  | statement s => statement (s.unwrap kind)

end TypedSql
