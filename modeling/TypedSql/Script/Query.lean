import TypedSql.Script

/-! The scripts of expressions, queries, selects and row sources. Each of these is one guarded step;
its `body` holds the steps inside the guard. -/

namespace TypedSql

mutual

/-- The steps of an expression inside its guard. Each operand is guarded again. -/
def Expr.body : Expr → Script
  | .ident i => [.ident i]
  | .compound segments => Script.compound segments
  | .wildcard => [.text "*"]
  | .qualifiedWildcard qualifiers =>
    if qualifiers.isEmpty then [.text "*"] else Script.chain qualifiers ++ [.text ".", .text "*"]
  | .binary left op right =>
    [.guarded left.body, .text " ", .text op.sql, .text " ", .guarded right.body]
  | .unary op operand => [.text op.sql, .guarded operand.body]
  | .between e negated low high =>
    [.guarded e.body, .text (if negated then " NOT BETWEEN " else " BETWEEN "),
      .guarded low.body, .text " AND ", .guarded high.body]
  | .caseOf operand arms otherwise =>
    .text "CASE" :: (Expr.clause " " operand ++ CaseArm.script arms
      ++ Expr.clause " ELSE " otherwise ++ [.text " END"])
  | .cast e type => .text "CAST(" :: .guarded e.body :: .text " AS " :: (type.script ++ [.text ")"])
  | .collate e collation => .guarded e.body :: .text " COLLATE " :: collation.script
  | .existsQuery q => [.text "EXISTS(", .guarded q.body, .text ")"]
  | .extract field source =>
    [.text "EXTRACT(", .text field.sql, .text " FROM ", .guarded source.body, .text ")"]
  | .apply function args =>
    .guarded function.body :: .text "(" :: (Script.commas (Expr.scripts args) ++ [.text ")"])
  | .isNull e negated => [.guarded e.body, .text (if negated then " IS NOT NULL" else " IS NULL")]
  | .inList e list negated =>
    .guarded e.body :: .text (if negated then " NOT IN (" else " IN (")
      :: (Script.commas (Expr.scripts list) ++ [.text ")"])
  | .inQuery e q negated =>
    [.guarded e.body, .text (if negated then " NOT IN (" else " IN ("), .guarded q.body, .text ")"]
  | .literal l => [.literal l]
  | .paren e => [.text "(", .guarded e.body, .text ")"]
  | .subquery q => [.text "(", .guarded q.body, .text ")"]
  | .custom node => [.custom "Expr" node]

/-- Expressions, each with its own guard. -/
def Expr.scripts : List Expr → List Script
  | [] => []
  | e :: es => [.guarded e.body] :: Expr.scripts es

/-- An optional expression after the words that introduce it. -/
def Expr.clause (lead : String) : Option Expr → Script
  | none => []
  | some e => [.text lead, .guarded e.body]

/-- Arms in their order. -/
def CaseArm.script : List CaseArm → Script
  | [] => []
  | ⟨condition, result⟩ :: arms =>
    .text " WHEN " :: .guarded condition.body :: .text " THEN " :: .guarded result.body
      :: CaseArm.script arms

/-- The clauses of a query. Empty ones are left out. -/
def Query.body : Query → Script
  | ⟨ctes, select, setOps, orderBy, limit, offset, ext⟩ =>
    (if ctes.isEmpty then []
      else .text "WITH " :: (Script.commas (Cte.scripts ctes) ++ [.text " "]))
    ++ .guarded select.body :: (SetOp.script setOps
    ++ (if orderBy.isEmpty then []
      else .text " ORDER BY " :: Script.commas (OrderKey.scripts orderBy))
    ++ Expr.clause " LIMIT " limit ++ Expr.clause " OFFSET " offset
    ++ Extension.slot "Query" ext)

/-- Common table expressions. The extension of one stands after its closing bracket. -/
def Cte.scripts : List Cte → List Script
  | [] => []
  | ⟨name, columns, query, ext⟩ :: ctes =>
    (.ident name :: (Script.columns columns
      ++ .text " AS (" :: .guarded query.body :: .text ")"
      :: Extension.slot "CommonTableExpr" ext)) :: Cte.scripts ctes

/-- Set operations in their order, each after a space. -/
def SetOp.script : List SetOp → Script
  | [] => []
  | ⟨operator, all, select, ext⟩ :: ops =>
    .text " " :: .text operator.sql :: ((if all then [.text " ALL"] else [])
      ++ .text " " :: .guarded select.body :: (Extension.slot "SetOp" ext ++ SetOp.script ops))

/-- Sort keys: the expression, then the direction, then where nulls go. -/
def OrderKey.scripts : List OrderKey → List Script
  | [] => []
  | ⟨e, direction, nulls, ext⟩ :: keys =>
    (.guarded e.body :: ((match direction with | none => [] | some d => [.text " ", .text d.sql])
      ++ (match nulls with | none => [] | some n => [.text " ", .text n.sql])
      ++ Extension.slot "OrderingExpr" ext)) :: OrderKey.scripts keys

/-- The clauses of a select. Absent ones are left out. -/
def Select.body : Select → Script
  | ⟨items, source, filter, groupBy, having, ext⟩ =>
    .text "SELECT " :: (Script.commas (SelectItem.scripts items) ++ FromClause.clause source
      ++ Expr.clause " WHERE " filter
      ++ (if groupBy.isEmpty then []
        else .text " GROUP BY " :: Script.commas (Expr.scripts groupBy))
      ++ Expr.clause " HAVING " having ++ Extension.slot "Select" ext)

/-- Selected expressions with their labels. -/
def SelectItem.scripts : List SelectItem → List Script
  | [] => []
  | ⟨e, label⟩ :: items =>
    (.guarded e.body :: (match label with | none => [] | some a => [.text " AS ", .ident a]))
      :: SelectItem.scripts items

/-- An optional `FROM` clause. -/
def FromClause.clause : Option FromClause → Script
  | none => []
  | some ⟨source, joins, ext⟩ =>
    .text " FROM " :: .guarded source.body
      :: (Join.script joins ++ Extension.slot "JoinedTable" ext)

/-- Joins in their order, each after a space. Its extension stands after its condition. -/
def Join.script : List Join → Script
  | [] => []
  | ⟨kind, source, on, ext⟩ :: joins =>
    .text " " :: (kind.script ++ .text " JOIN " :: .guarded source.body :: .text " ON "
      :: .guarded on.body :: (Extension.slot "Join" ext ++ Join.script joins))

/-- A row source. Derived rows stand in brackets and are labelled. -/
def RowSource.body : RowSource → Script
  | .table name => name.script
  | .derived q label => [.text "(", .guarded q.body, .text ") AS ", .ident label]
  | .function e label => [.text "(", .guarded e.body, .text ") AS ", .ident label]
  | .custom node => [.custom "Table" node]

end

def Expr.script (e : Expr) : Script := [.guarded e.body]

def Query.script (q : Query) : Script := [.guarded q.body]

def Select.script (s : Select) : Script := [.guarded s.body]

def RowSource.script (s : RowSource) : Script := [.guarded s.body]

end TypedSql
