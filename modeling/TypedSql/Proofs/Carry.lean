import TypedSql.Proofs.Place
import TypedSql.Proofs.Sequence
import TypedSql.Proofs.Token

/-! What the script of a tree has at a place: the script of the node there, and around it steps that
do not depend on that node. -/

namespace TypedSql

/-- The script of the whole has the script of the part in it. The steps beside it are the same
whatever the part is. -/
inductive Carries {α : Type} (part : α → Script) : (α → Script) → Prop
  | here : Carries part part
  | beside {whole : α → Script} (pre post : Script) (h : Carries part whole) :
      Carries part fun n => pre ++ (whole n ++ post)
  | within {whole : α → Script} (h : Carries part whole) :
      Carries part fun n => [.guarded (whole n)]

namespace Carries

variable {α β : Type} {part whole : α → Script}

theorem of_eq {whole' : α → Script} (h : Carries part whole) (he : ∀ n, whole' n = whole n) :
    Carries part whole' := by
  rw [funext he]
  exact h

theorem append (h : Carries part whole) (post : Script) :
    Carries part fun n => whole n ++ post :=
  beside [] post h

theorem prepend (pre : Script) (h : Carries part whole) :
    Carries part fun n => pre ++ whole n :=
  (beside pre [] h).of_eq fun n => by rw [List.append_nil]

theorem cons (step : Step) (h : Carries part whole) : Carries part fun n => step :: whole n :=
  prepend [step] h

/-- Among parts with commas between them. -/
theorem commas (before after : List Script) (h : Carries part whole) :
    Carries part fun n => Script.commas (before ++ whole n :: after) := by
  induction before with
  | nil =>
      cases after with
      | nil => exact h.of_eq fun n => List.intercalate_singleton
      | cons x xs =>
          exact (h.append ([.text ", "] ++ Script.commas (x :: xs))).of_eq fun n => by
            rw [List.nil_append, Script.commas, List.intercalate_cons_cons, List.append_assoc]
            rfl
  | cons x xs ih =>
      exact (ih.prepend (x ++ [.text ", "])).of_eq fun n => by
        rw [List.cons_append, Script.commas, List.intercalate_cons_of_ne_nil (by simp)]
        rfl

/-- Among parts one after the other. -/
theorem flatMap {β : Type} {f : α → β} {script : β → Script} (before after : List β)
    (h : Carries part fun n => script (f n)) :
    Carries part fun n => (before ++ f n :: after).flatMap script :=
  (h.beside (before.flatMap script) (after.flatMap script)).of_eq fun n => by
    rw [List.flatMap_append, List.flatMap_cons]

/-- What is collected from the steps of the whole, also behind guards, is the same around the part
whatever the part is. -/
theorem collect {β : Type} {f : Script → List β} (happend : ∀ s t, f (s ++ t) = f s ++ f t)
    (hguard : ∀ s, f [.guarded s] = f s) (h : Carries part whole) :
    ∃ pre post, ∀ n, f (whole n) = pre ++ (f (part n) ++ post) := by
  induction h with
  | here => exact ⟨[], [], fun n => (List.append_nil _).symm⟩
  | beside pre post _ ih =>
      obtain ⟨before, after, hwhole⟩ := ih
      refine ⟨f pre ++ before, after ++ f post, ?_⟩
      intro n
      rw [happend, happend, hwhole]
      simp only [List.append_assoc]
  | within _ ih =>
      obtain ⟨before, after, hwhole⟩ := ih
      refine ⟨before, after, ?_⟩
      intro n
      rw [hguard, hwhole]

/-- What is carried is also carried one layer further out. -/
theorem comp {inner : β → Script} {f : β → α} (hinner : Carries inner fun n => part (f n))
    (h : Carries part whole) : Carries inner fun n => whole (f n) := by
  induction h with
  | here => exact hinner
  | beside pre post _ ih => exact ih.beside pre post
  | within _ ih => exact ih.within

end Carries

/-! ### Lists of parts -/

theorem Expr.scripts_append (xs ys : List Expr) :
    Expr.scripts (xs ++ ys) = Expr.scripts xs ++ Expr.scripts ys := by
  induction xs with
  | nil => rfl
  | cons e es ih => rw [List.cons_append, scripts, scripts, ih, List.cons_append]

theorem CaseArm.script_append (xs ys : List CaseArm) :
    CaseArm.script (xs ++ ys) = CaseArm.script xs ++ CaseArm.script ys := by
  induction xs with
  | nil => rfl
  | cons arm arms ih =>
      obtain ⟨condition, result⟩ := arm
      rw [List.cons_append, script, script, ih]
      rfl

theorem Cte.scripts_append (xs ys : List Cte) :
    Cte.scripts (xs ++ ys) = Cte.scripts xs ++ Cte.scripts ys := by
  induction xs with
  | nil => rfl
  | cons cte ctes ih =>
      obtain ⟨name, columns, query, ext⟩ := cte
      rw [List.cons_append, scripts, scripts, ih, List.cons_append]

theorem SetOp.script_append (xs ys : List SetOp) :
    SetOp.script (xs ++ ys) = SetOp.script xs ++ SetOp.script ys := by
  induction xs with
  | nil => rfl
  | cons op ops ih =>
      obtain ⟨operator, all, select, ext⟩ := op
      rw [List.cons_append, script, script, ih]
      simp

theorem OrderKey.scripts_append (xs ys : List OrderKey) :
    OrderKey.scripts (xs ++ ys) = OrderKey.scripts xs ++ OrderKey.scripts ys := by
  induction xs with
  | nil => rfl
  | cons key keys ih =>
      obtain ⟨e, direction, nulls, ext⟩ := key
      rw [List.cons_append, scripts.eq_def, scripts.eq_def (_ :: keys)]
      dsimp only
      rw [ih, List.cons_append]

theorem SelectItem.scripts_append (xs ys : List SelectItem) :
    SelectItem.scripts (xs ++ ys) = SelectItem.scripts xs ++ SelectItem.scripts ys := by
  induction xs with
  | nil => rfl
  | cons item items ih =>
      obtain ⟨e, label⟩ := item
      rw [List.cons_append, scripts.eq_def, scripts.eq_def (_ :: items)]
      dsimp only
      rw [ih, List.cons_append]

theorem Join.script_append (xs ys : List Join) :
    Join.script (xs ++ ys) = Join.script xs ++ Join.script ys := by
  induction xs with
  | nil => rfl
  | cons join joins ih =>
      obtain ⟨kind, source, on, ext⟩ := join
      rw [List.cons_append, script, script, ih]
      simp

theorem Expr.carries_scripts (before after : List Expr) :
    Carries Node.script fun n : Node .expr =>
      Script.commas (Expr.scripts (before ++ n :: after)) :=
  (Carries.here.commas (Expr.scripts before) (Expr.scripts after)).of_eq fun n => by
    rw [Expr.scripts_append]
    rfl

theorem Constraint.carries_with {α Rule : Type} {part : α → Script} (script : Rule → Script)
    (rule : α → Rule) (h : Carries part fun n => script (rule n)) (c : Constraint Rule) :
    Carries part fun n => Constraint.scriptWith script { c with rule := rule n } := by
  simp only [Constraint.scriptWith]
  exact .append (.append (.prepend _ h) _) _

/-- Among other constraints of a column or a domain. -/
theorem Constraint.carries_among {α Rule : Type} {part : α → Script} {script : Rule → Script}
    {constraint : α → Constraint Rule} (h : Carries part fun n => (constraint n).scriptWith script)
    (before after : List (Constraint Rule)) :
    Carries part fun n => Constraint.clauses script (before ++ constraint n :: after) :=
  (h.cons (.text " ")).flatMap before after

theorem Constraint.carries_clauses {α Rule : Type} {part : α → Script} (script : Rule → Script)
    (rule : α → Rule) (h : Carries part fun n => script (rule n)) (before : List (Constraint Rule))
    (c : Constraint Rule) (after : List (Constraint Rule)) :
    Carries part fun n =>
      Constraint.clauses script (before ++ { c with rule := rule n } :: after) :=
  carries_among (carries_with script rule h c) before after

/-- Among the constraints of a table, which follow its columns. -/
theorem TableDef.carries_constraints {α : Type} {part : α → Script} (d : TableDef)
    {constraint : α → Constraint TableRule}
    (h : Carries part fun n => (constraint n).scriptWith TableRule.script)
    (before after : List (Constraint TableRule)) :
    Carries part fun n => Script.commas (d.columns.map Column.script
      ++ (before ++ constraint n :: after).map (Constraint.scriptWith TableRule.script)) :=
  (h.commas (d.columns.map Column.script ++ before.map (Constraint.scriptWith TableRule.script))
    (after.map (Constraint.scriptWith TableRule.script))).of_eq fun n => by
      rw [List.map_append, ← List.append_assoc]
      rfl

theorem SchemaElement.body_toStatement (e : SchemaElement) : e.toStatement.body = e.script := by
  cases e <;> rfl

theorem Expr.carries_check : Carries Node.script fun n : Node .expr => Expr.check n :=
  .cons _ (.append .here _)

theorem FromClause.carries_joins {α : Type} {part : α → Script} {join : α → Join}
    (clause : FromClause) (before after : List Join)
    (h : Carries part fun n => Join.script (join n :: after)) :
    Carries part fun n =>
      FromClause.clause (some { clause with joins := before ++ join n :: after }) := by
  have hjoins : Carries part fun n => Join.script (before ++ join n :: after) :=
    (h.prepend (Join.script before)).of_eq fun n => Join.script_append before _
  exact .cons _ (.cons _ (.append hjoins _))

theorem Select.carries_clause {α : Type} {part : α → Script} {clause : α → FromClause} (s : Select)
    (h : Carries part fun n => FromClause.clause (some (clause n))) :
    Carries part fun n => Select.script { s with source := some (clause n) } :=
  .within (.cons _ (.append (.append (.append (.append (.prepend _ h) _) _) _) _))

/-! ### Layers -/

theorem Frame.carries_expr {a : Category} (frame : Frame a .expr) :
    Carries Node.script fun n => (frame.plug n).script := by
  cases frame with
  | binaryLeft op right => exact .within (.append .here _)
  | binaryRight left op => exact .within (.prepend [_, _, _, _] .here)
  | unary op => exact .within (.cons _ .here)
  | betweenValue negated low high => exact .within (.append .here _)
  | betweenLow e negated high => exact .within (.cons _ (.cons _ (.append .here _)))
  | betweenHigh e negated low => exact .within (.prepend [_, _, _, _] .here)
  | caseOperand arms otherwise =>
      exact .within (.cons _ (.append (.append (.append (.cons _ .here) _) _) _))
  | caseCondition operand before result after otherwise =>
      have harms : Carries Node.script fun n : Node .expr =>
          CaseArm.script (before ++ ⟨n, result⟩ :: after) :=
        (Carries.prepend (CaseArm.script before) (.cons _ (.append .here _))).of_eq fun n =>
          CaseArm.script_append before _
      exact .within (.cons _ (.append (.append (.prepend _ harms) _) _))
  | caseResult operand before condition after otherwise =>
      have harms : Carries Node.script fun n : Node .expr =>
          CaseArm.script (before ++ ⟨condition, n⟩ :: after) :=
        (Carries.prepend (CaseArm.script before)
          (.prepend [_, _, _] (.append .here _))).of_eq fun n =>
            CaseArm.script_append before _
      exact .within (.cons _ (.append (.append (.prepend _ harms) _) _))
  | caseOtherwise operand arms =>
      exact .within (.cons _ (.append (.prepend _ (.cons _ .here)) _))
  | cast type => exact .within (.cons _ (.append .here _))
  | collate collation => exact .within (.append .here _)
  | extract field => exact .within (.prepend [_, _, _] (.append .here _))
  | applyFunction args => exact .within (.append .here _)
  | applyArg function before after =>
      exact .within (.cons _ (.cons _ (.append (Expr.carries_scripts before after) _)))
  | isNull negated => exact .within (.append .here _)
  | inListValue list negated => exact .within (.append .here _)
  | inListMember e before after negated =>
      exact .within (.cons _ (.cons _ (.append (Expr.carries_scripts before after) _)))
  | inQueryValue q negated => exact .within (.append .here _)
  | paren => exact .within (.cons _ (.append .here _))
  | existsQuery => exact .within (.cons _ (.append .here _))
  | inQuery e negated => exact .within (.cons _ (.cons _ (.append .here _)))
  | subquery => exact .within (.cons _ (.append .here _))

theorem Frame.carries_query {a : Category} (frame : Frame a .query) :
    Carries Node.script fun n => (frame.plug n).script := by
  cases frame with
  | cteQuery q before cte after =>
      have hctes : Carries Node.script fun n : Node .query =>
          Script.commas (Cte.scripts (before ++ { cte with query := n } :: after)) :=
        (Carries.commas (Cte.scripts before) (Cte.scripts after)
          (.cons _ (.prepend _ (.cons _ (.append .here _))))).of_eq fun n => by
            rw [Cte.scripts_append]
            rfl
      cases before <;> exact .within (.append (.cons _ (.append hctes _)) _)
  | querySelect q => exact .within (.prepend _ (.append .here _))
  | setOpSelect q before op after =>
      have hops : Carries Node.script fun n : Node .select =>
          SetOp.script (before ++ { op with select := n } :: after) :=
        (Carries.prepend (SetOp.script before)
          (.cons _ (.cons _ (.prepend _ (.cons _ (.append .here _)))))).of_eq fun n =>
            SetOp.script_append before _
      exact .within (.prepend _ (.cons _ (.append (.append (.append (.append hops _) _) _) _)))
  | sortKey q before key after =>
      have hkeys : Carries Node.script fun n : Node .expr =>
          Script.commas (OrderKey.scripts (before ++ { key with expr := n } :: after)) :=
        (Carries.commas (OrderKey.scripts before) (OrderKey.scripts after)
          (.append .here _)).of_eq fun n => by
            rw [OrderKey.scripts_append]
            rfl
      cases before <;> exact .within (.prepend _ (.cons _
        (.append (.append (.append (.prepend _ (.cons _ hkeys)) _) _) _)))
  | limit q =>
      exact .within (.prepend _ (.cons _ (.append (.append (.prepend _ (.cons _ .here)) _) _)))
  | offset q =>
      exact .within (.prepend _ (.cons _ (.append (.prepend _ (.cons _ .here)) _)))

theorem Frame.carries_select {a : Category} (frame : Frame a .select) :
    Carries Node.script fun n => (frame.plug n).script := by
  cases frame with
  | selectItem s before item after =>
      have hitems : Carries Node.script fun n : Node .expr =>
          Script.commas (SelectItem.scripts (before ++ { item with expr := n } :: after)) :=
        (Carries.commas (SelectItem.scripts before) (SelectItem.scripts after)
          (.append .here _)).of_eq fun n => by
            rw [SelectItem.scripts_append]
            rfl
      exact .within (.cons _ (.append (.append (.append (.append (.append hitems _) _) _) _) _))
  | fromSource s clause =>
      have hclause : Carries Node.script fun n : Node .source =>
          FromClause.clause (some { clause with source := n }) :=
        .cons _ (.append .here _)
      exact s.carries_clause hclause
  | joinSource s clause before join after =>
      have hjoin : Carries Node.script fun n : Node .source =>
          Join.script ({ join with source := n } :: after) :=
        .cons _ (.prepend _ (.cons _ (.append .here _)))
      exact s.carries_clause (clause.carries_joins before after hjoin)
  | joinOn s clause before join after =>
      have hjoin : Carries Node.script fun n : Node .expr =>
          Join.script ({ join with on := n } :: after) :=
        .cons _ (.prepend _ (.cons _ (.cons _ (.cons _ (.append .here _)))))
      exact s.carries_clause (clause.carries_joins before after hjoin)
  | selectFilter s =>
      exact .within (.cons _ (.append (.append (.append (.prepend _ (.cons _ .here)) _) _) _))
  | group s before after =>
      have hgroups := Expr.carries_scripts before after
      cases before <;>
        exact .within (.cons _ (.append (.append (.prepend _ (.cons _ hgroups)) _) _))
  | having s => exact .within (.cons _ (.append (.prepend _ (.cons _ .here)) _))

theorem Frame.carries_source {a : Category} (frame : Frame a .source) :
    Carries Node.script fun n => (frame.plug n).script := by
  cases frame with
  | derivedQuery label => exact .within (.cons _ (.append .here _))
  | tableFunction label => exact .within (.cons _ (.append .here _))

theorem Frame.carries_column {a : Category} (frame : Frame a .column) :
    Carries Node.script fun n => (frame.plug n).script := by
  cases frame with
  | columnCheck c before constraint after =>
      have hclauses := Constraint.carries_clauses ColumnRule.script ColumnRule.check Expr.carries_check before
        constraint after
      change Carries Node.script fun n : Node .expr => Column.script
        { c with constraints := before ++ { constraint with rule := .check n } :: after }
      simp only [Column.script]
      exact .cons _ (.cons _ (.append (.append (.prepend _ hclauses) _) _))

theorem Frame.carries_element {a : Category} (frame : Frame a .element) :
    Carries Node.script fun n => (frame.plug n).script := by
  cases frame with
  | tableColumn d before after =>
      have hcolumns : Carries Node.script fun n : Node .column =>
          Script.commas ((before ++ n :: after).map Column.script
            ++ d.constraints.map (Constraint.scriptWith TableRule.script)) :=
        (Carries.here.commas (before.map Column.script) (after.map Column.script
          ++ d.constraints.map (Constraint.scriptWith TableRule.script))).of_eq fun n => by
            rw [List.map_append, List.append_assoc]
            rfl
      refine .within ?_
      change Carries Node.script fun n : Node .column => TableDef.script
        { d with columns := before ++ n :: after }
      simp only [TableDef.script]
      exact .prepend [_, _, _] (.prepend _ (.cons _ (.append hcolumns _)))
  | tableCheck d before constraint after =>
      have hrule := Constraint.carries_with TableRule.script TableRule.check Expr.carries_check constraint
      have hconstraints := d.carries_constraints hrule before after
      refine .within ?_
      change Carries Node.script fun n : Node .expr => TableDef.script
        { d with constraints := before ++ { constraint with rule := .check n } :: after }
      simp only [TableDef.script]
      exact .prepend [_, _, _] (.prepend _ (.cons _ (.append hconstraints _)))
  | viewQuery d =>
      refine .within ?_
      change Carries Node.script fun n : Node .query => ViewDef.script { d with query := n }
      simp only [ViewDef.script]
      exact .cons _ (.prepend _ (.cons _ (.append .here _)))
  | domainCheck d before constraint after =>
      have hclauses := Constraint.carries_clauses DomainRule.script DomainRule.mk Expr.carries_check before
        constraint after
      refine .within ?_
      change Carries Node.script fun n : Node .expr => DomainDef.script
        { d with constraints := before ++ { constraint with rule := ⟨n⟩ } :: after }
      simp only [DomainDef.script]
      exact .cons _ (.prepend _ (.cons _ (.append (.append (.prepend _ hclauses) _) _)))

theorem Frame.carries_statement {a : Category} (frame : Frame a .statement) :
    Carries Node.script fun n => (frame.plug n).script := by
  cases frame with
  | definition => exact .here
  | schemaElement d before after =>
      have helement : Carries Node.script fun n : Node .element =>
          [Step.text " ", .guarded (SchemaElement.script n)] :=
        (Carries.cons (.text " ") .here).of_eq fun n => by
          rw [← SchemaElement.body_toStatement]
          rfl
      have helements : Carries Node.script fun n : Node .element =>
          (before ++ n :: after).flatMap fun e => [Step.text " ", .guarded e.script] :=
        helement.flatMap before after
      refine .within ?_
      change Carries Node.script fun n : Node .element => SchemaDef.script
        { d with elements := before ++ n :: after }
      simp only [SchemaDef.script]
      exact .cons _ (.append (.prepend _ helements) _)
  | query => exact .within .here
  | addColumn a =>
      refine .within ?_
      change Carries Node.script fun n : Node .column => AlterTable.script
        { a with change := .addColumn n }
      simp only [AlterTable.script]
      exact .cons _ (.prepend _ (.cons _ (.append (.cons _ .here) _)))
  | addTableCheck a constraint =>
      have hrule := Constraint.carries_with TableRule.script TableRule.check Expr.carries_check constraint
      refine .within ?_
      change Carries Node.script fun n : Node .expr => AlterTable.script
        { a with change := .addConstraint { constraint with rule := .check n } }
      simp only [AlterTable.script]
      exact .cons _ (.prepend _ (.cons _ (.append (.cons _ hrule) _)))
  | addDomainCheck a constraint =>
      have hrule := Constraint.carries_with DomainRule.script DomainRule.mk Expr.carries_check constraint
      refine .within ?_
      change Carries Node.script fun n : Node .expr => AlterDomain.script
        { a with change := .addConstraint { constraint with rule := ⟨n⟩ } }
      simp only [AlterDomain.script]
      exact .cons _ (.prepend _ (.cons _ (.append (.cons _ hrule) _)))
  | insertValue i before left right after =>
      have hrow : Carries Node.script fun n : Node .expr =>
          Cell.row (left ++ .value n :: right) :=
        .cons _ (.append ((Carries.here.commas (left.map Cell.script)
          (right.map Cell.script)).of_eq fun n => by
            rw [List.map_append]
            rfl) _)
      have hrows : Carries Node.script fun n : Node .expr =>
          Script.commas ((before ++ (left ++ .value n :: right) :: after).map Cell.row) :=
        (hrow.commas (before.map Cell.row) (after.map Cell.row)).of_eq fun n => by
          rw [List.map_append]
          rfl
      refine .within ?_
      change Carries Node.script fun n : Node .expr => Insert.script
        { i with rows := .values (before ++ (left ++ .value n :: right) :: after) }
      simp only [Insert.script]
      exact .cons _ (.append (.prepend _ (.cons _ hrows)) _)
  | insertQuery i =>
      refine .within ?_
      change Carries Node.script fun n : Node .query => Insert.script { i with rows := .query n }
      simp only [Insert.script]
      exact .cons _ (.append (.prepend _ (.cons _ .here)) _)
  | assignedValue u before column after =>
      have hassignment : Carries Node.script fun n : Node .expr =>
          Assignment.script ⟨column, .value n⟩ := by
        simp only [Assignment.script]
        exact .cons _ (.cons _ .here)
      have hassignments : Carries Node.script fun n : Node .expr =>
          Script.commas ((before ++ ⟨column, .value n⟩ :: after).map Assignment.script) :=
        (hassignment.commas (before.map Assignment.script)
          (after.map Assignment.script)).of_eq fun n => by
            rw [List.map_append]
            rfl
      refine .within ?_
      change Carries Node.script fun n : Node .expr => Update.script
        { u with assignments := before ++ ⟨column, .value n⟩ :: after }
      simp only [Update.script]
      exact .cons _ (.prepend _ (.cons _ (.append (.append hassignments _) _)))
  | updateFilter u =>
      refine .within ?_
      change Carries Node.script fun n : Node .expr => Update.script { u with filter := some n }
      simp only [Update.script]
      exact .cons _ (.prepend _ (.cons _ (.append (.prepend _ (.cons _ .here)) _)))
  | deleteFilter d =>
      refine .within ?_
      change Carries Node.script fun n : Node .expr => Delete.script { d with filter := some n }
      simp only [Delete.script]
      exact .cons _ (.append (.prepend _ (.cons _ .here)) _)

/-- Every layer has the script of the node that is plugged in. -/
theorem Frame.carries {a b : Category} (frame : Frame a b) :
    Carries Node.script fun n => (frame.plug n).script := by
  cases b with
  | expr => exact frame.carries_expr
  | query => exact frame.carries_query
  | select => exact frame.carries_select
  | source => exact frame.carries_source
  | column => exact frame.carries_column
  | element => exact frame.carries_element
  | statement => exact frame.carries_statement

theorem Place.carries {a b : Category} (place : Place a b) :
    Carries Node.script fun n => (place.plug n).script := by
  induction place with
  | here => exact .here
  | inside frame place ih => exact ih.comp frame.carries

end TypedSql
