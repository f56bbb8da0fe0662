import TypedSql.Script.Statement

/-! The sites of a tree: its identifiers, literals, custom operators and dialect nodes, the places
that cannot be written, and the starts of its guarded nodes. They are listed in the order of the
text: in a query the common table expressions, the select, the set operations, the sort keys, the
limit and the offset; in a select the items, the sources with their joins, the filter, the groups
and their filter; in a column its type, its default, its constraints and its collation. -/

namespace TypedSql

inductive Site where
  /-- The start of a guarded node, with the number of guarded nodes around it, itself included. -/
  | guarded (depth : Nat)
  | ident (i : Ident)
  | literal (l : Literal)
  /-- An operator that is written as it is. -/
  | operator (text : String)
  /-- A compound name of fewer than two segments. -/
  | short (segments : Nat)
  /-- A type with a scale and no precision. -/
  | unscaled (keyword : String)
  /-- A dialect node, with the family that names its place. -/
  | node (family : String) (node : Extension)

namespace Site

/-- The site below some more guarded nodes. -/
def sink (k : Nat) : Site → Site
  | guarded depth => guarded (depth + k)
  | site => site

/-- The sites of a guarded node, given the sites inside it. -/
def nest (inside : List Site) : List Site :=
  guarded 1 :: inside.map (sink 1)

/-- A guard around sites hides nothing of them but their depth. -/
theorem filterMap_nest {α : Type} {f : Site → Option α} (hf : ∀ depth, f (.guarded depth) = none)
    (inside : List Site) : (nest inside).filterMap f = inside.filterMap f := by
  have hsink (site : Site) : f (site.sink 1) = f site := by
    cases site with
    | guarded depth => rw [sink, hf, hf]
    | _ => rfl
  rw [nest, List.filterMap_cons_none (hf 1), List.filterMap_map]
  exact congrArg (inside.filterMap ·) (funext hsink)

theorem node_mem_nest {family : String} {n : Extension} {inside : List Site}
    (h : node family n ∈ inside) : node family n ∈ nest inside :=
  List.mem_cons_of_mem _ (List.mem_map_of_mem (f := sink 1) h)

/-- The segments of a compound name. -/
def compound (segments : List Ident) : List Site :=
  if segments.length < 2 then [short segments.length] else segments.map ident

/-- The slot of a node. -/
def slot (family : String) : Option Extension → List Site
  | none => []
  | some n => [node family n]

end Site

def Name.sites : Name → List Site
  | simple i => [.ident i]
  | compound segments => Site.compound segments

def Name.sitesOption : Option Name → List Site
  | none => []
  | some name => name.sites

namespace DataType

/-- A scale needs a precision. -/
def scaledSites (keyword : String) : Option Nat → Option Nat → List Site
  | none, some _ => [.unscaled keyword]
  | _, _ => []

def sites : DataType → List Site
  | numeric p s => scaledSites "NUMERIC" p s
  | decimal p s => scaledSites "DECIMAL" p s
  | custom node => [.node "DataType" node]
  | _ => []

end DataType

def JoinKind.sites : JoinKind → List Site
  | custom node => [.node "JoinKind" node]
  | _ => []

def BinaryOp.sites : BinaryOp → List Site
  | custom text => [.operator text]
  | _ => []

def UnaryOp.sites : UnaryOp → List Site
  | custom text => [.operator text]
  | _ => []

mutual

def Expr.sites : Expr → List Site
  | .ident i => Site.nest [.ident i]
  | .compound segments => Site.nest (Site.compound segments)
  | .wildcard => Site.nest []
  | .qualifiedWildcard qualifiers => Site.nest (qualifiers.map .ident)
  | .binary left op right => Site.nest (left.sites ++ op.sites ++ right.sites)
  | .unary op operand => Site.nest (op.sites ++ operand.sites)
  | .between e _ low high => Site.nest (e.sites ++ low.sites ++ high.sites)
  | .caseOf operand arms otherwise =>
    Site.nest (Expr.sitesOption operand ++ CaseArm.sitesList arms ++ Expr.sitesOption otherwise)
  | .cast e type => Site.nest (e.sites ++ type.sites)
  | .collate e collation => Site.nest (e.sites ++ collation.sites)
  | .existsQuery q => Site.nest q.sites
  | .extract _ source => Site.nest source.sites
  | .apply function args => Site.nest (function.sites ++ Expr.sitesList args)
  | .isNull e _ => Site.nest e.sites
  | .inList e list _ => Site.nest (e.sites ++ Expr.sitesList list)
  | .inQuery e q _ => Site.nest (e.sites ++ q.sites)
  | .literal l => Site.nest [.literal l]
  | .paren e => Site.nest e.sites
  | .subquery q => Site.nest q.sites
  | .custom node => Site.nest [.node "Expr" node]

def Expr.sitesList : List Expr → List Site
  | [] => []
  | e :: es => e.sites ++ Expr.sitesList es

def Expr.sitesOption : Option Expr → List Site
  | none => []
  | some e => e.sites

def CaseArm.sitesList : List CaseArm → List Site
  | [] => []
  | ⟨condition, result⟩ :: arms => condition.sites ++ result.sites ++ CaseArm.sitesList arms

def Query.sites : Query → List Site
  | ⟨ctes, select, setOps, orderBy, limit, offset, ext⟩ =>
    Site.nest (Cte.sitesList ctes ++ select.sites ++ SetOp.sitesList setOps
      ++ OrderKey.sitesList orderBy ++ Expr.sitesOption limit ++ Expr.sitesOption offset
      ++ Site.slot "Query" ext)

def Cte.sitesList : List Cte → List Site
  | [] => []
  | ⟨name, columns, query, ext⟩ :: ctes =>
    .ident name :: columns.map .ident ++ query.sites ++ Site.slot "CommonTableExpr" ext
      ++ Cte.sitesList ctes

def SetOp.sitesList : List SetOp → List Site
  | [] => []
  | ⟨_, _, select, ext⟩ :: ops =>
    select.sites ++ Site.slot "SetOp" ext ++ SetOp.sitesList ops

def OrderKey.sitesList : List OrderKey → List Site
  | [] => []
  | ⟨e, _, _, ext⟩ :: keys =>
    e.sites ++ Site.slot "OrderingExpr" ext ++ OrderKey.sitesList keys

def Select.sites : Select → List Site
  | ⟨items, source, filter, groupBy, having, ext⟩ =>
    Site.nest (SelectItem.sitesList items ++ FromClause.sitesOption source
      ++ Expr.sitesOption filter ++ Expr.sitesList groupBy ++ Expr.sitesOption having
      ++ Site.slot "Select" ext)

def SelectItem.sitesList : List SelectItem → List Site
  | [] => []
  | ⟨e, label⟩ :: items => e.sites ++ label.toList.map .ident ++ SelectItem.sitesList items

def FromClause.sitesOption : Option FromClause → List Site
  | none => []
  | some ⟨source, joins, ext⟩ =>
    source.sites ++ Join.sitesList joins ++ Site.slot "JoinedTable" ext

def Join.sitesList : List Join → List Site
  | [] => []
  | ⟨kind, source, on, ext⟩ :: joins =>
    kind.sites ++ source.sites ++ on.sites ++ Site.slot "Join" ext ++ Join.sitesList joins

def RowSource.sites : RowSource → List Site
  | .table name => Site.nest name.sites
  | .derived q label => Site.nest (q.sites ++ [.ident label])
  | .function e label => Site.nest (e.sites ++ [.ident label])
  | .custom node => Site.nest [.node "Table" node]

end

/-- A default of `NULL` is a keyword and no literal. -/
def DefaultValue.sites : DefaultValue → List Site
  | literal l => [.literal l]
  | _ => []

def DefaultValue.sitesOption : Option DefaultValue → List Site
  | none => []
  | some d => d.sites

def Unique.sites (u : Unique) : List Site :=
  u.columns.map .ident ++ Site.slot "UniqueConstraint" u.ext

def Reference.sites (r : Reference) : List Site :=
  r.referring.map .ident ++ r.table.sites ++ r.columns.map .ident
    ++ Site.slot "ReferenceConstraint" r.ext

def ColumnRule.sites : ColumnRule → List Site
  | notNull => []
  | unique u => u.sites
  | references r => r.sites
  | check condition => condition.sites
  | custom node => [.node "ColumnConstraint" node]

def TableRule.sites : TableRule → List Site
  | unique u => u.sites
  | references r => r.sites
  | check condition => condition.sites
  | custom node => [.node "TableConstraint" node]

def DomainRule.sites (r : DomainRule) : List Site := r.condition.sites

def CheckTime.sitesOption : Option CheckTime → List Site
  | none => []
  | some t => Site.slot "ConstraintCheckTime" t.ext

/-- A constraint, given the sites of its rule. -/
def Constraint.sitesWith {Rule : Type} (rule : Rule → List Site) (c : Constraint Rule) :
    List Site :=
  c.name.toList.map .ident ++ rule c.rule ++ CheckTime.sitesOption c.checkTime
    ++ Site.slot "ConstraintDefinition" c.ext

def Constraint.sitesList {Rule : Type} (rule : Rule → List Site) (cs : List (Constraint Rule)) :
    List Site :=
  cs.flatMap (Constraint.sitesWith rule)

def ColumnType.sites : ColumnType → List Site
  | type t => t.sites
  | domain name => name.sites

def Column.sites (c : Column) : List Site :=
  .ident c.name :: c.type.sites ++ DefaultValue.sitesOption c.default
    ++ Constraint.sitesList ColumnRule.sites c.constraints ++ Name.sitesOption c.collation
    ++ Site.slot "ColumnDefinition" c.ext

def TableDef.sites (d : TableDef) : List Site :=
  d.name.sites ++ d.columns.flatMap Column.sites
    ++ Constraint.sitesList TableRule.sites d.constraints ++ Site.slot "TableDefinition" d.ext

def ViewDef.sites (d : ViewDef) : List Site :=
  d.name.sites ++ d.columns.map .ident ++ d.query.sites ++ Site.slot "ViewDefinition" d.ext

def DomainDef.sites (d : DomainDef) : List Site :=
  d.name.sites ++ d.type.sites ++ DefaultValue.sitesOption d.default
    ++ Constraint.sitesList DomainRule.sites d.constraints ++ Name.sitesOption d.collation
    ++ Site.slot "DomainDefinition" d.ext

def Privilege.sites (p : Privilege) : List Site :=
  (p.columns?.getD []).map .ident

def Privilege.sitesList (privileges : Option (List Privilege)) : List Site :=
  (privileges.getD []).flatMap Privilege.sites

def Grant.sites (g : Grant) : List Site :=
  Privilege.sitesList g.privileges ++ g.object.sites ++ (g.grantees.getD []).map .ident
    ++ Site.slot "GrantStatement" g.ext

def Revoke.sites (r : Revoke) : List Site :=
  Privilege.sitesList r.privileges ++ r.object.sites ++ (r.grantees.getD []).map .ident
    ++ Site.slot "RevokeStatement" r.ext

/-- The sites inside the guard of a schema element. -/
def SchemaElement.inside : SchemaElement → List Site
  | table d => d.sites
  | view d => d.sites
  | domain d => d.sites
  | grant g => g.sites

/-- The elements of a schema are guarded. -/
def SchemaElement.sites (e : SchemaElement) : List Site := Site.nest e.inside

def SchemaDef.sites (d : SchemaDef) : List Site :=
  d.name.sites ++ d.authorization.toList.map .ident ++ Name.sitesOption d.characterSet
    ++ d.elements.flatMap SchemaElement.sites ++ Site.slot "SchemaDefinition" d.ext

def TableChange.sites : TableChange → List Site
  | addColumn column => column.sites
  | alterColumn column (.set value) => .ident column :: value.sites
  | alterColumn column .drop => [.ident column]
  | dropColumn column _ => [.ident column]
  | addConstraint constraint => constraint.sitesWith TableRule.sites
  | dropConstraint name _ => [.ident name]

def AlterTable.sites (a : AlterTable) : List Site :=
  a.name.sites ++ a.change.sites ++ Site.slot "AlterTable" a.ext

def DomainChange.sites : DomainChange → List Site
  | setDefault value => value.sites
  | dropDefault => []
  | addConstraint constraint => constraint.sitesWith DomainRule.sites
  | dropConstraint name => [.ident name]

def AlterDomain.sites (a : AlterDomain) : List Site :=
  a.name.sites ++ a.change.sites ++ Site.slot "AlterDomain" a.ext

def Drop.sites (d : Drop) : List Site :=
  d.name.sites ++ Site.slot "Drop" d.ext

/-- A cell that takes the default of its column has no sites. -/
def Cell.sites : Cell → List Site
  | value e => e.sites
  | default => []

/-- Rows are read one after the other. -/
def InsertRows.sites : InsertRows → List Site
  | values rows => rows.flatMap fun row => row.flatMap Cell.sites
  | query q => q.sites
  | defaultValues => []

def Insert.sites (i : Insert) : List Site :=
  i.table.sites ++ i.columns.map .ident ++ i.rows.sites ++ Site.slot "Insert" i.ext

def Assignment.sites (a : Assignment) : List Site :=
  .ident a.column :: a.value.sites

def Update.sites (u : Update) : List Site :=
  u.table.sites ++ u.assignments.flatMap Assignment.sites ++ Expr.sitesOption u.filter
    ++ Site.slot "Update" u.ext

def Delete.sites (d : Delete) : List Site :=
  d.table.sites ++ Expr.sitesOption d.filter ++ Site.slot "Delete" d.ext

/-- The sites inside the guard of a statement. -/
def Statement.inside : Statement → List Site
  | query q => q.sites
  | createSchema d => d.sites
  | createTable d => d.sites
  | createView d => d.sites
  | createDomain d => d.sites
  | grant g => g.sites
  | revoke r => r.sites
  | alterTable a => a.sites
  | alterDomain a => a.sites
  | drop d => d.sites
  | insert i => i.sites
  | update u => u.sites
  | delete d => d.sites

def Statement.sites (s : Statement) : List Site := Site.nest s.inside

end TypedSql
