import TypedSql.Proofs.Tree

/-! Places in a tree. A place is given by what stands around it, layer by layer; a node of its
category is plugged into it. What a dialect node carries is no part of the tree around it. -/

namespace TypedSql

/-- The categories of the nodes that can stand at a place. -/
inductive Category where
  | expr
  | query
  | select
  | source
  | column
  | element
  | statement

/-- The nodes of a category. -/
abbrev Node : Category → Type
  | .expr => Expr
  | .query => Query
  | .select => Select
  | .source => RowSource
  | .column => Column
  | .element => SchemaElement
  | .statement => Statement

/-- One layer around a node. Where a layer has a node of the kind that it surrounds, the one part that
is plugged in replaces what the layer has there. -/
inductive Frame : Category → Category → Type
  | binaryLeft (op : BinaryOp) (right : Expr) : Frame .expr .expr
  | binaryRight (left : Expr) (op : BinaryOp) : Frame .expr .expr
  | unary (op : UnaryOp) : Frame .expr .expr
  | betweenValue (negated : Bool) (low high : Expr) : Frame .expr .expr
  | betweenLow (e : Expr) (negated : Bool) (high : Expr) : Frame .expr .expr
  | betweenHigh (e : Expr) (negated : Bool) (low : Expr) : Frame .expr .expr
  | caseOperand (arms : List CaseArm) (otherwise : Option Expr) : Frame .expr .expr
  | caseCondition (operand : Option Expr) (before : List CaseArm) (result : Expr)
      (after : List CaseArm) (otherwise : Option Expr) : Frame .expr .expr
  | caseResult (operand : Option Expr) (before : List CaseArm) (condition : Expr)
      (after : List CaseArm) (otherwise : Option Expr) : Frame .expr .expr
  | caseOtherwise (operand : Option Expr) (arms : List CaseArm) : Frame .expr .expr
  | cast (type : DataType) : Frame .expr .expr
  | collate (collation : Name) : Frame .expr .expr
  | extract (field : DateField) : Frame .expr .expr
  | applyFunction (args : List Expr) : Frame .expr .expr
  | applyArg (function : Expr) (before after : List Expr) : Frame .expr .expr
  | isNull (negated : Bool) : Frame .expr .expr
  | inListValue (list : List Expr) (negated : Bool) : Frame .expr .expr
  | inListMember (e : Expr) (before after : List Expr) (negated : Bool) : Frame .expr .expr
  | inQueryValue (q : Query) (negated : Bool) : Frame .expr .expr
  | paren : Frame .expr .expr
  | existsQuery : Frame .query .expr
  | inQuery (e : Expr) (negated : Bool) : Frame .query .expr
  | subquery : Frame .query .expr
  | cteQuery (q : Query) (before : List Cte) (cte : Cte) (after : List Cte) : Frame .query .query
  | querySelect (q : Query) : Frame .select .query
  | setOpSelect (q : Query) (before : List SetOp) (op : SetOp) (after : List SetOp) :
      Frame .select .query
  | sortKey (q : Query) (before : List OrderKey) (key : OrderKey) (after : List OrderKey) :
      Frame .expr .query
  | limit (q : Query) : Frame .expr .query
  | offset (q : Query) : Frame .expr .query
  | selectItem (s : Select) (before : List SelectItem) (item : SelectItem)
      (after : List SelectItem) : Frame .expr .select
  | fromSource (s : Select) (clause : FromClause) : Frame .source .select
  | joinSource (s : Select) (clause : FromClause) (before : List Join) (join : Join)
      (after : List Join) : Frame .source .select
  | joinOn (s : Select) (clause : FromClause) (before : List Join) (join : Join)
      (after : List Join) : Frame .expr .select
  | selectFilter (s : Select) : Frame .expr .select
  | group (s : Select) (before after : List Expr) : Frame .expr .select
  | having (s : Select) : Frame .expr .select
  | derivedQuery (label : Ident) : Frame .query .source
  | tableFunction (label : Ident) : Frame .expr .source
  | columnCheck (c : Column) (before : List (Constraint ColumnRule))
      (constraint : Constraint ColumnRule) (after : List (Constraint ColumnRule)) :
      Frame .expr .column
  | tableColumn (d : TableDef) (before after : List Column) : Frame .column .element
  | tableCheck (d : TableDef) (before : List (Constraint TableRule))
      (constraint : Constraint TableRule) (after : List (Constraint TableRule)) :
      Frame .expr .element
  | viewQuery (d : ViewDef) : Frame .query .element
  | domainCheck (d : DomainDef) (before : List (Constraint DomainRule))
      (constraint : Constraint DomainRule) (after : List (Constraint DomainRule)) :
      Frame .expr .element
  /-- A definition that is a statement of its own. -/
  | definition : Frame .element .statement
  | schemaElement (d : SchemaDef) (before after : List SchemaElement) : Frame .element .statement
  | query : Frame .query .statement
  | addColumn (a : AlterTable) : Frame .column .statement
  | addTableCheck (a : AlterTable) (constraint : Constraint TableRule) : Frame .expr .statement
  | addDomainCheck (a : AlterDomain) (constraint : Constraint DomainRule) : Frame .expr .statement
  | insertValue (i : Insert) (before : List (List Cell)) (left right : List Cell)
      (after : List (List Cell)) : Frame .expr .statement
  | insertQuery (i : Insert) : Frame .query .statement
  | assignedValue (u : Update) (before : List Assignment) (column : Ident)
      (after : List Assignment) : Frame .expr .statement
  | updateFilter (u : Update) : Frame .expr .statement
  | deleteFilter (d : Delete) : Frame .expr .statement

/-- The layer with a node in it. -/
def Frame.plug {a b : Category} : Frame a b → Node a → Node b
  | binaryLeft op right, n => Expr.binary n op right
  | binaryRight left op, n => Expr.binary left op n
  | unary op, n => Expr.unary op n
  | betweenValue negated low high, n => Expr.between n negated low high
  | betweenLow e negated high, n => Expr.between e negated n high
  | betweenHigh e negated low, n => Expr.between e negated low n
  | caseOperand arms otherwise, n => Expr.caseOf (some n) arms otherwise
  | caseCondition operand before result after otherwise, n =>
    Expr.caseOf operand (before ++ ⟨n, result⟩ :: after) otherwise
  | caseResult operand before condition after otherwise, n =>
    Expr.caseOf operand (before ++ ⟨condition, n⟩ :: after) otherwise
  | caseOtherwise operand arms, n => Expr.caseOf operand arms (some n)
  | cast type, n => Expr.cast n type
  | collate collation, n => Expr.collate n collation
  | extract field, n => Expr.extract field n
  | applyFunction args, n => Expr.apply n args
  | applyArg function before after, n => Expr.apply function (before ++ n :: after)
  | isNull negated, n => Expr.isNull n negated
  | inListValue list negated, n => Expr.inList n list negated
  | inListMember e before after negated, n => Expr.inList e (before ++ n :: after) negated
  | inQueryValue q negated, n => Expr.inQuery n q negated
  | paren, n => Expr.paren n
  | existsQuery, n => Expr.existsQuery n
  | inQuery e negated, n => Expr.inQuery e n negated
  | subquery, n => Expr.subquery n
  | cteQuery q before cte after, n =>
    { q with ctes := before ++ { cte with query := n } :: after }
  | querySelect q, n => { q with select := n }
  | setOpSelect q before op after, n =>
    { q with setOps := before ++ { op with select := n } :: after }
  | sortKey q before key after, n =>
    { q with orderBy := before ++ { key with expr := n } :: after }
  | limit q, n => { q with limit := some n }
  | offset q, n => { q with offset := some n }
  | selectItem s before item after, n =>
    { s with items := before ++ { item with expr := n } :: after }
  | fromSource s clause, n => { s with source := some { clause with source := n } }
  | joinSource s clause before join after, n =>
    { s with
      source := some { clause with joins := before ++ { join with source := n } :: after } }
  | joinOn s clause before join after, n =>
    { s with
      source := some { clause with joins := before ++ { join with on := n } :: after } }
  | selectFilter s, n => { s with filter := some n }
  | group s before after, n => { s with groupBy := before ++ n :: after }
  | having s, n => { s with having := some n }
  | derivedQuery label, n => RowSource.derived n label
  | tableFunction label, n => RowSource.function n label
  | columnCheck c before constraint after, n =>
    { c with constraints := before ++ { constraint with rule := .check n } :: after }
  | tableColumn d before after, n =>
    SchemaElement.table { d with columns := before ++ n :: after }
  | tableCheck d before constraint after, n =>
    SchemaElement.table
      { d with constraints := before ++ { constraint with rule := .check n } :: after }
  | viewQuery d, n => SchemaElement.view { d with query := n }
  | domainCheck d before constraint after, n =>
    SchemaElement.domain
      { d with constraints := before ++ { constraint with rule := ⟨n⟩ } :: after }
  | definition, n => SchemaElement.toStatement n
  | schemaElement d before after, n =>
    Statement.createSchema { d with elements := before ++ n :: after }
  | query, n => Statement.query n
  | addColumn a, n => Statement.alterTable { a with change := .addColumn n }
  | addTableCheck a constraint, n =>
    Statement.alterTable { a with change := .addConstraint { constraint with rule := .check n } }
  | addDomainCheck a constraint, n =>
    Statement.alterDomain { a with change := .addConstraint { constraint with rule := ⟨n⟩ } }
  | insertValue i before left right after, n =>
    Statement.insert
      { i with rows := .values (before ++ (left ++ .value n :: right) :: after) }
  | insertQuery i, n => Statement.insert { i with rows := .query n }
  | assignedValue u before column after, n =>
    Statement.update { u with assignments := before ++ ⟨column, .value n⟩ :: after }
  | updateFilter u, n => Statement.update { u with filter := some n }
  | deleteFilter d, n => Statement.delete { d with filter := some n }

/-- A place for nodes of a category in a tree of another, from the inside out. -/
inductive Place (a : Category) : Category → Type
  | here : Place a a
  | inside {b c : Category} (frame : Frame b c) (place : Place a b) : Place a c

/-- The tree with a node at the place. -/
def Place.plug {a b : Category} : Place a b → Node a → Node b
  | here, n => n
  | inside frame place, n => frame.plug (place.plug n)

namespace Node

def script : {a : Category} → Node a → Script
  | .expr, e => Expr.script e
  | .query, q => Query.script q
  | .select, s => Select.script s
  | .source, s => RowSource.script s
  | .column, c => Column.script c
  | .element, e => e.toStatement.script
  | .statement, s => Statement.script s

def sites : {a : Category} → Node a → List Site
  | .expr, e => Expr.sites e
  | .query, q => Query.sites q
  | .select, s => Select.sites s
  | .source, s => RowSource.sites s
  | .column, c => Column.sites c
  | .element, e => e.toStatement.sites
  | .statement, s => Statement.sites s

/-- The rendering of a node alone: a schema element is a statement then. -/
def result (r : Renderer) : {a : Category} → Node a → Except Halt Rendered
  | .expr, e => (r.expr e).result
  | .query, q => (r.query q).result
  | .select, s => (r.select s).result
  | .source, s => (r.source s).result
  | .column, c => r.render (Column.script c)
  | .element, e => (r.statement e.toStatement).result
  | .statement, s => (r.statement s).result

variable {a : Category}

theorem result_eq (r : Renderer) (n : Node a) : n.result r = r.render n.script := by
  cases a <;> rfl

theorem layout (n : Node a) : Layout n.sites n.script := by
  cases a with
  | expr => exact Expr.layout n
  | query => exact Query.layout n
  | select => exact Select.layout n
  | source => exact RowSource.layout n
  | column => exact Column.layout n
  | element => exact (SchemaElement.toStatement n).layout
  | statement => exact Statement.layout n

end Node

end TypedSql
