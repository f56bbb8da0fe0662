import TypedSql.Statement
import TypedSql.Options

/-! Equality of trees. It is structural, with two exceptions: floats are compared as numbers, and the
nodes of dialects by kind and identity, because their payloads are opaque. -/

namespace TypedSql

instance : BEq Extension := ⟨fun a b => a.kind == b.kind && a.identity == b.identity⟩

def DataType.same : DataType → DataType → Bool
  | .char a, .char b => a == b
  | .varchar a, .varchar b => a == b
  | .text, .text => true
  | .numeric p₁ s₁, .numeric p₂ s₂ => p₁ == p₂ && s₁ == s₂
  | .decimal p₁ s₁, .decimal p₂ s₂ => p₁ == p₂ && s₁ == s₂
  | .smallint, .smallint => true
  | .integer, .integer => true
  | .bigint, .bigint => true
  | .float a, .float b => a == b
  | .real, .real => true
  | .doublePrecision, .doublePrecision => true
  | .boolean, .boolean => true
  | .date, .date => true
  | .time p₁ z₁, .time p₂ z₂ => p₁ == p₂ && z₁ == z₂
  | .timestamp p₁ z₁, .timestamp p₂ z₂ => p₁ == p₂ && z₁ == z₂
  | .custom a, .custom b => a == b
  | _, _ => false

instance : BEq DataType := ⟨DataType.same⟩

def JoinKind.same : JoinKind → JoinKind → Bool
  | .inner, .inner => true
  | .left, .left => true
  | .right, .right => true
  | .full, .full => true
  | .custom a, .custom b => a == b
  | _, _ => false

instance : BEq JoinKind := ⟨JoinKind.same⟩

mutual

def Expr.same : Expr → Expr → Bool
  | .ident a, .ident b => a == b
  | .compound a, .compound b => a == b
  | .wildcard, .wildcard => true
  | .qualifiedWildcard a, .qualifiedWildcard b => a == b
  | .binary l₁ op₁ r₁, .binary l₂ op₂ r₂ => l₁.same l₂ && op₁ == op₂ && r₁.same r₂
  | .unary op₁ e₁, .unary op₂ e₂ => op₁ == op₂ && e₁.same e₂
  | .between e₁ n₁ l₁ h₁, .between e₂ n₂ l₂ h₂ =>
    e₁.same e₂ && n₁ == n₂ && l₁.same l₂ && h₁.same h₂
  | .caseOf o₁ as₁ d₁, .caseOf o₂ as₂ d₂ =>
    Expr.sameOption o₁ o₂ && CaseArm.sameList as₁ as₂ && Expr.sameOption d₁ d₂
  | .cast e₁ t₁, .cast e₂ t₂ => e₁.same e₂ && t₁ == t₂
  | .collate e₁ c₁, .collate e₂ c₂ => e₁.same e₂ && c₁ == c₂
  | .existsQuery a, .existsQuery b => a.same b
  | .extract f₁ s₁, .extract f₂ s₂ => f₁ == f₂ && s₁.same s₂
  | .apply f₁ as₁, .apply f₂ as₂ => f₁.same f₂ && Expr.sameList as₁ as₂
  | .isNull e₁ n₁, .isNull e₂ n₂ => e₁.same e₂ && n₁ == n₂
  | .inList e₁ l₁ n₁, .inList e₂ l₂ n₂ => e₁.same e₂ && Expr.sameList l₁ l₂ && n₁ == n₂
  | .inQuery e₁ q₁ n₁, .inQuery e₂ q₂ n₂ => e₁.same e₂ && q₁.same q₂ && n₁ == n₂
  | .literal a, .literal b => a == b
  | .paren a, .paren b => a.same b
  | .subquery a, .subquery b => a.same b
  | .custom a, .custom b => a == b
  | _, _ => false

def Expr.sameList : List Expr → List Expr → Bool
  | [], [] => true
  | a :: as, b :: bs => a.same b && Expr.sameList as bs
  | _, _ => false

def Expr.sameOption : Option Expr → Option Expr → Bool
  | none, none => true
  | some a, some b => a.same b
  | _, _ => false

def CaseArm.sameList : List CaseArm → List CaseArm → Bool
  | [], [] => true
  | ⟨c₁, r₁⟩ :: as, ⟨c₂, r₂⟩ :: bs => c₁.same c₂ && r₁.same r₂ && CaseArm.sameList as bs
  | _, _ => false

def Query.same : Query → Query → Bool
  | ⟨c₁, s₁, o₁, k₁, l₁, f₁, x₁⟩, ⟨c₂, s₂, o₂, k₂, l₂, f₂, x₂⟩ =>
    Cte.sameList c₁ c₂ && s₁.same s₂ && SetOp.sameList o₁ o₂ && OrderKey.sameList k₁ k₂
      && Expr.sameOption l₁ l₂ && Expr.sameOption f₁ f₂ && x₁ == x₂

def Cte.sameList : List Cte → List Cte → Bool
  | [], [] => true
  | ⟨n₁, c₁, q₁, x₁⟩ :: as, ⟨n₂, c₂, q₂, x₂⟩ :: bs =>
    n₁ == n₂ && c₁ == c₂ && q₁.same q₂ && x₁ == x₂ && Cte.sameList as bs
  | _, _ => false

def Select.same : Select → Select → Bool
  | ⟨i₁, s₁, f₁, g₁, h₁, x₁⟩, ⟨i₂, s₂, f₂, g₂, h₂, x₂⟩ =>
    SelectItem.sameList i₁ i₂ && FromClause.sameOption s₁ s₂ && Expr.sameOption f₁ f₂
      && Expr.sameList g₁ g₂ && Expr.sameOption h₁ h₂ && x₁ == x₂

def SelectItem.sameList : List SelectItem → List SelectItem → Bool
  | [], [] => true
  | ⟨e₁, a₁⟩ :: as, ⟨e₂, a₂⟩ :: bs => e₁.same e₂ && a₁ == a₂ && SelectItem.sameList as bs
  | _, _ => false

def SetOp.sameList : List SetOp → List SetOp → Bool
  | [], [] => true
  | ⟨o₁, a₁, s₁, x₁⟩ :: as, ⟨o₂, a₂, s₂, x₂⟩ :: bs =>
    o₁ == o₂ && a₁ == a₂ && s₁.same s₂ && x₁ == x₂ && SetOp.sameList as bs
  | _, _ => false

def OrderKey.sameList : List OrderKey → List OrderKey → Bool
  | [], [] => true
  | ⟨e₁, d₁, n₁, x₁⟩ :: as, ⟨e₂, d₂, n₂, x₂⟩ :: bs =>
    e₁.same e₂ && d₁ == d₂ && n₁ == n₂ && x₁ == x₂ && OrderKey.sameList as bs
  | _, _ => false

def RowSource.same : RowSource → RowSource → Bool
  | .table a, .table b => a == b
  | .derived q₁ a₁, .derived q₂ a₂ => q₁.same q₂ && a₁ == a₂
  | .function e₁ a₁, .function e₂ a₂ => e₁.same e₂ && a₁ == a₂
  | .custom a, .custom b => a == b
  | _, _ => false

def FromClause.sameOption : Option FromClause → Option FromClause → Bool
  | none, none => true
  | some ⟨s₁, j₁, x₁⟩, some ⟨s₂, j₂, x₂⟩ => s₁.same s₂ && Join.sameList j₁ j₂ && x₁ == x₂
  | _, _ => false

def Join.sameList : List Join → List Join → Bool
  | [], [] => true
  | ⟨k₁, s₁, e₁, x₁⟩ :: as, ⟨k₂, s₂, e₂, x₂⟩ :: bs =>
    k₁ == k₂ && s₁.same s₂ && e₁.same e₂ && x₁ == x₂ && Join.sameList as bs
  | _, _ => false

end

instance : BEq Expr := ⟨Expr.same⟩

instance : BEq Query := ⟨Query.same⟩

instance : BEq Select := ⟨Select.same⟩

instance : BEq RowSource := ⟨RowSource.same⟩

deriving instance BEq for CheckTime, Constraint, Unique, Reference, ColumnRule, TableRule,
  DomainRule, DefaultValue, ColumnType, Column, TableDef, ViewDef, DomainDef, Grant, Revoke,
  SchemaElement, SchemaDef, DefaultChange, TableChange, AlterTable, DomainChange, AlterDomain,
  Drop, Cell, InsertRows, Insert, Assignment, Update, Delete, Statement

end TypedSql
