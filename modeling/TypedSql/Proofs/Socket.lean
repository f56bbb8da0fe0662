import TypedSql.Proofs.Carry

/-! Sockets. Some sets of variants have a custom one, whose text is up to a handler. A socket is a node
with a variant of such a set taken out; what stands around it is the same for all variants. -/

namespace TypedSql

/-- The sets of variants with a custom one. -/
inductive Family where
  | expr
  | source
  | type
  | joinKind
  | columnRule
  | tableRule

/-- The variants of a family. -/
abbrev Variant : Family → Type
  | .expr => Expr
  | .source => RowSource
  | .type => DataType
  | .joinKind => JoinKind
  | .columnRule => ColumnRule
  | .tableRule => TableRule

namespace Variant

/-- The script of a variant, without a guard around it. -/
def script : {f : Family} → Variant f → Script
  | .expr, e => Expr.body e
  | .source, s => RowSource.body s
  | .type, t => DataType.script t
  | .joinKind, k => JoinKind.script k
  | .columnRule, r => ColumnRule.script r
  | .tableRule, r => TableRule.script r

def custom (n : Extension) : (f : Family) → Variant f
  | .expr => Expr.custom n
  | .source => RowSource.custom n
  | .type => DataType.custom n
  | .joinKind => JoinKind.custom n
  | .columnRule => ColumnRule.custom n
  | .tableRule => TableRule.custom n

end Variant

/-- The name of a family in errors. -/
def Family.label : Family → String
  | expr => "Expr"
  | source => "Table"
  | type => "DataType"
  | joinKind => "JoinKind"
  | columnRule => "ColumnConstraint"
  | tableRule => "TableConstraint"

/-- A custom variant is nothing but the call of its handler. -/
theorem Variant.script_custom (n : Extension) (f : Family) :
    (custom n f).script = [.custom f.label n] := by
  cases f with
  | expr =>
      change Expr.body (.custom n) = _
      rw [Expr.body]
      rfl
  | source =>
      change RowSource.body (.custom n) = _
      rw [RowSource.body]
      rfl
  | _ => rfl

/-- A node of a category with a variant taken out of it. -/
inductive Socket : Family → Category → Type
  | expr : Socket .expr .expr
  | source : Socket .source .source
  | castType (e : Expr) : Socket .type .expr
  | joinKind (s : Select) (clause : FromClause) (before : List Join) (join : Join)
      (after : List Join) : Socket .joinKind .select
  | columnType (c : Column) : Socket .type .column
  | columnRule (c : Column) (before : List (Constraint ColumnRule))
      (constraint : Constraint ColumnRule) (after : List (Constraint ColumnRule)) :
      Socket .columnRule .column
  | tableRule (d : TableDef) (before : List (Constraint TableRule))
      (constraint : Constraint TableRule) (after : List (Constraint TableRule)) :
      Socket .tableRule .element
  | domainType (d : DomainDef) : Socket .type .element
  | addTableRule (a : AlterTable) (constraint : Constraint TableRule) :
      Socket .tableRule .statement

namespace Socket

/-- The node with a variant in the socket. -/
def plug {f : Family} {a : Category} : Socket f a → Variant f → Node a
  | expr, v => v
  | source, v => v
  | castType e, v => Expr.cast e v
  | joinKind s clause before join after, v =>
    { s with
      source := some { clause with joins := before ++ { join with kind := v } :: after } }
  | columnType c, v => { c with type := .type v }
  | columnRule c before constraint after, v =>
    { c with constraints := before ++ { constraint with rule := v } :: after }
  | tableRule d before constraint after, v =>
    SchemaElement.table
      { d with constraints := before ++ { constraint with rule := v } :: after }
  | domainType d, v => SchemaElement.domain { d with type := v }
  | addTableRule a constraint, v =>
    Statement.alterTable { a with change := .addConstraint { constraint with rule := v } }

/-- A node has the script of the variant in its socket. -/
theorem carries {f : Family} {a : Category} (socket : Socket f a) :
    Carries Variant.script fun v => (socket.plug v).script := by
  cases socket with
  | expr => exact .within .here
  | source => exact .within .here
  | castType e => exact .within (.cons _ (.cons _ (.cons _ (.append .here _))))
  | joinKind s clause before join after =>
      have hjoin : Carries Variant.script fun v : Variant .joinKind =>
          Join.script ({ join with kind := v } :: after) :=
        .cons _ (.append .here _)
      exact s.carries_clause (clause.carries_joins before after hjoin)
  | columnType c =>
      change Carries Variant.script fun v : Variant .type => Column.script { c with type := .type v }
      simp only [Column.script]
      exact .cons _ (.cons _ (.append (.append (.append (.append .here _) _) _) _))
  | columnRule c before constraint after =>
      have hrule : Carries Variant.script fun v : Variant .columnRule => ColumnRule.script v := .here
      have hclauses := Constraint.carries_clauses ColumnRule.script id hrule before constraint after
      change Carries Variant.script fun v : Variant .columnRule => Column.script
        { c with constraints := before ++ { constraint with rule := v } :: after }
      simp only [Column.script]
      exact .cons _ (.cons _ (.append (.append (.prepend _ hclauses) _) _))
  | tableRule d before constraint after =>
      have hrule : Carries Variant.script fun v : Variant .tableRule => TableRule.script v := .here
      have hconstraint := Constraint.carries_with TableRule.script id hrule constraint
      refine .within ?_
      change Carries Variant.script fun v : Variant .tableRule => TableDef.script
        { d with constraints := before ++ { constraint with rule := v } :: after }
      simp only [TableDef.script]
      exact .prepend [_, _, _] (.prepend _ (.cons _
        (.append (TableDef.carries_constraints d hconstraint before after) _)))
  | domainType d =>
      refine .within ?_
      change Carries Variant.script fun v : Variant .type => DomainDef.script { d with type := v }
      simp only [DomainDef.script]
      exact .cons _ (.prepend _ (.cons _
        (.append (.append (.append (.append .here _) _) _) _)))
  | addTableRule a constraint =>
      have hrule : Carries Variant.script fun v : Variant .tableRule => TableRule.script v := .here
      have hconstraint := Constraint.carries_with TableRule.script id hrule constraint
      refine .within ?_
      change Carries Variant.script fun v : Variant .tableRule => AlterTable.script
        { a with change := .addConstraint { constraint with rule := v } }
      simp only [AlterTable.script]
      exact .cons _ (.prepend _ (.cons _ (.append (.cons _ hconstraint) _)))

end Socket

end TypedSql
