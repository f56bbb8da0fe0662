import Mathlib.Data.List.Forall2
import TypedSql.Proofs.Unwrap

/-! The scripts of trees without their wrappers. Step by step they are the scripts of the trees, but
for the guards of the wrappers: each of these gives way to the guard of what the wrapper carries. -/

namespace TypedSql

namespace Script

/-- The second script is the first one without the wrappers of a kind. What a wrapper carries may be
a wrapper again. -/
inductive Unwraps (kind : String) : Script → Script → Prop
  | nil : Unwraps kind [] []
  | append {a a' b b' : Script} (ha : Unwraps kind a a') (hb : Unwraps kind b b') :
      Unwraps kind (a ++ b) (a' ++ b')
  | same (step : Step) (h : ∀ body, step ≠ .guarded body) : Unwraps kind [step] [step]
  | guarded {body body' : Script} (h : Unwraps kind body body') :
      Unwraps kind [.guarded body] [.guarded body']
  | wrapped {n : Extension} {e : Expr} {body' : Script} (hkind : n.kind = kind)
      (hpayload : n.payload = .expr e) (h : Unwraps kind e.script [.guarded body']) :
      Unwraps kind [.guarded [.custom "Expr" n]] [.guarded body']

namespace Unwraps

variable {kind : String} {s s' : Script}

theorem refl (kind : String) (s : List Step) : Unwraps kind s s := by
  cases s with
  | nil => exact nil
  | cons step steps =>
      cases step with
      | guarded body => exact (guarded (refl kind body)).append (refl kind steps)
      | _ =>
          refine (same _ ?_).append (refl kind steps)
          intro body h
          cases h

theorem cons {step step' : Step} (h : Unwraps kind [step] [step']) (hs : Unwraps kind s s') :
    Unwraps kind (step :: s) (step' :: s') :=
  h.append hs

/-- One step that both scripts have. -/
theorem step (step : Step) (hs : Unwraps kind s s') : Unwraps kind (step :: s) (step :: s') :=
  (refl kind [step]).cons hs

/-- A beginning that both scripts have. -/
theorem after (first : Script) (hs : Unwraps kind s s') :
    Unwraps kind (first ++ s) (first ++ s') :=
  (refl kind first).append hs

/-- An end that both scripts have. -/
theorem before (hs : Unwraps kind s s') (rest : Script) : Unwraps kind (s ++ rest) (s' ++ rest) :=
  hs.append (refl kind rest)

theorem commas {parts parts' : List Script} (h : List.Forall₂ (Unwraps kind) parts parts') :
    Unwraps kind (Script.commas parts) (Script.commas parts') := by
  induction h with
  | nil => exact nil
  | cons hpart hparts ih =>
      cases hparts with
      | nil =>
          rw [Script.commas, Script.commas, List.intercalate_singleton, List.intercalate_singleton]
          exact hpart
      | cons _ _ =>
          rw [Script.commas, Script.commas, List.intercalate_cons_cons, List.intercalate_cons_cons,
            List.append_assoc, List.append_assoc]
          exact hpart.append (after _ ih)

/-- The scripts of parts, given how one part is changed. -/
theorem map {α : Type} {f : α → α} {script : α → Script}
    (h : ∀ x, Unwraps kind (script x) (script (f x))) (xs : List α) :
    List.Forall₂ (Unwraps kind) (xs.map script) ((xs.map f).map script) := by
  rw [List.map_map, List.forall₂_map_left_iff, List.forall₂_map_right_iff, List.forall₂_same]
  exact fun x _ => h x

theorem flatMap {α : Type} {f : α → α} (script : α → Script)
    (h : ∀ x, Unwraps kind (script x) (script (f x))) (xs : List α) :
    Unwraps kind (xs.flatMap script) ((xs.map f).flatMap script) := by
  induction xs with
  | nil => exact nil
  | cons x xs ih => exact (h x).append ih

end Unwraps

end Script

open Script

variable (kind : String)

mutual

theorem Expr.unwraps (e : Expr) : Unwraps kind e.script (e.unwrap kind).script := by
  cases e with
  | binary left op right =>
      rw [Expr.unwrap, Expr.script, Expr.script, Expr.body, Expr.body]
      exact .guarded (left.unwraps.cons (.step _ (.step _ (.step _ right.unwraps))))
  | unary op operand =>
      rw [Expr.unwrap, Expr.script, Expr.script, Expr.body, Expr.body]
      exact .guarded (.step _ operand.unwraps)
  | between e negated low high =>
      rw [Expr.unwrap, Expr.script, Expr.script, Expr.body, Expr.body]
      exact .guarded (e.unwraps.cons (.step _ (low.unwraps.cons (.step _ high.unwraps))))
  | caseOf operand arms otherwise =>
      have harms := ((Expr.unwrapsOption " " operand).append (CaseArm.unwrapsList arms)).append
        (Expr.unwrapsOption " ELSE " otherwise)
      rw [Expr.unwrap, Expr.script, Expr.script, Expr.body, Expr.body]
      exact .guarded (.step _ (harms.before _))
  | cast e type =>
      rw [Expr.unwrap, Expr.script, Expr.script, Expr.body, Expr.body]
      exact .guarded (.step _ (e.unwraps.cons (.refl kind _)))
  | collate e collation =>
      rw [Expr.unwrap, Expr.script, Expr.script, Expr.body, Expr.body]
      exact .guarded (e.unwraps.cons (.refl kind _))
  | existsQuery q =>
      rw [Expr.unwrap, Expr.script, Expr.script, Expr.body, Expr.body]
      exact .guarded (.step _ (q.unwraps.cons (.refl kind _)))
  | extract field source =>
      rw [Expr.unwrap, Expr.script, Expr.script, Expr.body, Expr.body]
      exact .guarded (.step _ (.step _ (.step _ (source.unwraps.cons (.refl kind _)))))
  | apply function args =>
      have hargs := Unwraps.commas (Expr.unwrapsList args)
      rw [Expr.unwrap, Expr.script, Expr.script, Expr.body, Expr.body]
      exact .guarded (function.unwraps.cons (.step _ (hargs.before _)))
  | isNull e negated =>
      rw [Expr.unwrap, Expr.script, Expr.script, Expr.body, Expr.body]
      exact .guarded (e.unwraps.cons (.refl kind _))
  | inList e list negated =>
      have hlist := Unwraps.commas (Expr.unwrapsList list)
      rw [Expr.unwrap, Expr.script, Expr.script, Expr.body, Expr.body]
      exact .guarded (e.unwraps.cons (.step _ (hlist.before _)))
  | inQuery e q negated =>
      rw [Expr.unwrap, Expr.script, Expr.script, Expr.body, Expr.body]
      exact .guarded (e.unwraps.cons (.step _ (q.unwraps.cons (.refl kind _))))
  | paren e =>
      rw [Expr.unwrap, Expr.script, Expr.script, Expr.body, Expr.body]
      exact .guarded (.step _ (e.unwraps.cons (.refl kind _)))
  | subquery q =>
      rw [Expr.unwrap, Expr.script, Expr.script, Expr.body, Expr.body]
      exact .guarded (.step _ (q.unwraps.cons (.refl kind _)))
  | custom node =>
      obtain ⟨k, identity, payload⟩ := node
      cases payload with
      | expr e =>
          rw [Expr.unwrap]
          by_cases hk : k = kind
          · rw [if_pos hk]
            exact .wrapped hk rfl e.unwraps
          · rw [if_neg hk]
            exact .refl kind _
      | _ => exact .refl kind _
  | _ => exact .refl kind _

theorem Expr.unwrapsList (es : List Expr) :
    List.Forall₂ (Unwraps kind) (Expr.scripts es) (Expr.scripts (Expr.unwrapList kind es)) := by
  cases es with
  | nil => exact .nil
  | cons e es =>
      rw [Expr.unwrapList, Expr.scripts, Expr.scripts]
      exact .cons e.unwraps (Expr.unwrapsList es)

theorem Expr.unwrapsOption (lead : String) (e : Option Expr) :
    Unwraps kind (Expr.clause lead e) (Expr.clause lead (Expr.unwrapOption kind e)) := by
  cases e with
  | none => exact .nil
  | some e =>
      rw [Expr.unwrapOption, Expr.clause, Expr.clause]
      exact .step _ e.unwraps

theorem CaseArm.unwrapsList (arms : List CaseArm) :
    Unwraps kind (CaseArm.script arms) (CaseArm.script (CaseArm.unwrapList kind arms)) := by
  cases arms with
  | nil => exact .nil
  | cons arm arms =>
      obtain ⟨condition, result⟩ := arm
      rw [CaseArm.unwrapList, CaseArm.script, CaseArm.script]
      exact .step _ (condition.unwraps.cons (.step _
        (result.unwraps.cons (CaseArm.unwrapsList arms))))

theorem Query.unwraps (q : Query) : Unwraps kind q.script (q.unwrap kind).script := by
  obtain ⟨ctes, select, setOps, orderBy, limit, offset, ext⟩ := q
  have hctes : Unwraps kind (if ctes.isEmpty then []
        else .text "WITH " :: (Script.commas (Cte.scripts ctes) ++ [.text " "]))
      (if (Cte.unwrapList kind ctes).isEmpty then []
        else .text "WITH " :: (Script.commas (Cte.scripts (Cte.unwrapList kind ctes))
          ++ [.text " "])) := by
    cases ctes with
    | nil => exact .nil
    | cons cte ctes =>
        obtain ⟨name, columns, query, ext⟩ := cte
        have hctes := Cte.unwrapsList (⟨name, columns, query, ext⟩ :: ctes)
        exact .step _ ((Unwraps.commas hctes).before _)
  have hkeys : Unwraps kind (if orderBy.isEmpty then []
        else .text " ORDER BY " :: Script.commas (OrderKey.scripts orderBy))
      (if (OrderKey.unwrapList kind orderBy).isEmpty then []
        else .text " ORDER BY " :: Script.commas (OrderKey.scripts
          (OrderKey.unwrapList kind orderBy))) := by
    cases orderBy with
    | nil => exact .nil
    | cons key keys =>
        obtain ⟨e, direction, nulls, ext⟩ := key
        have hkeys := OrderKey.unwrapsList (⟨e, direction, nulls, ext⟩ :: keys)
        exact .step _ (Unwraps.commas hkeys)
  have hrest := ((((SetOp.unwrapsList setOps).append hkeys).append
    (Expr.unwrapsOption " LIMIT " limit)).append (Expr.unwrapsOption " OFFSET " offset)).before
    (Extension.slot "Query" ext)
  rw [Query.unwrap, Query.script, Query.script, Query.body, Query.body]
  exact .guarded (hctes.append (select.unwraps.cons hrest))

theorem Cte.unwrapsList (ctes : List Cte) :
    List.Forall₂ (Unwraps kind) (Cte.scripts ctes) (Cte.scripts (Cte.unwrapList kind ctes)) := by
  cases ctes with
  | nil => exact .nil
  | cons cte ctes =>
      obtain ⟨name, columns, query, ext⟩ := cte
      rw [Cte.unwrapList, Cte.scripts, Cte.scripts]
      exact .cons (.step _ (.after _ (.step _ (query.unwraps.cons (.refl kind _)))))
        (Cte.unwrapsList ctes)

theorem SetOp.unwrapsList (ops : List SetOp) :
    Unwraps kind (SetOp.script ops) (SetOp.script (SetOp.unwrapList kind ops)) := by
  cases ops with
  | nil => exact .nil
  | cons op ops =>
      obtain ⟨operator, all, select, ext⟩ := op
      rw [SetOp.unwrapList, SetOp.script, SetOp.script]
      exact .step _ (.step _ (.after _ (.step _
        (select.unwraps.cons (.after _ (SetOp.unwrapsList ops))))))

theorem OrderKey.unwrapsList (keys : List OrderKey) :
    List.Forall₂ (Unwraps kind) (OrderKey.scripts keys)
      (OrderKey.scripts (OrderKey.unwrapList kind keys)) := by
  cases keys with
  | nil => exact .nil
  | cons key keys =>
      obtain ⟨e, direction, nulls, ext⟩ := key
      exact .cons (e.unwraps.cons (.refl kind _)) (OrderKey.unwrapsList keys)

theorem Select.unwraps (s : Select) : Unwraps kind s.script (s.unwrap kind).script := by
  obtain ⟨items, source, filter, groupBy, having, ext⟩ := s
  have hgroups : Unwraps kind (if groupBy.isEmpty then []
        else .text " GROUP BY " :: Script.commas (Expr.scripts groupBy))
      (if (Expr.unwrapList kind groupBy).isEmpty then []
        else .text " GROUP BY " :: Script.commas (Expr.scripts
          (Expr.unwrapList kind groupBy))) := by
    cases groupBy with
    | nil => exact .nil
    | cons e es => exact .step _ (Unwraps.commas (Expr.unwrapsList (e :: es)))
  have hclauses := (((((Unwraps.commas (SelectItem.unwrapsList items)).append
    (FromClause.unwrapsOption source)).append (Expr.unwrapsOption " WHERE " filter)).append
    hgroups).append (Expr.unwrapsOption " HAVING " having)).before (Extension.slot "Select" ext)
  rw [Select.unwrap, Select.script, Select.script, Select.body, Select.body]
  exact .guarded (.step _ hclauses)

theorem SelectItem.unwrapsList (items : List SelectItem) :
    List.Forall₂ (Unwraps kind) (SelectItem.scripts items)
      (SelectItem.scripts (SelectItem.unwrapList kind items)) := by
  cases items with
  | nil => exact .nil
  | cons item items =>
      obtain ⟨e, label⟩ := item
      exact .cons (e.unwraps.cons (.refl kind _)) (SelectItem.unwrapsList items)

theorem FromClause.unwrapsOption (source : Option FromClause) :
    Unwraps kind (FromClause.clause source)
      (FromClause.clause (FromClause.unwrapOption kind source)) := by
  cases source with
  | none => exact .nil
  | some clause =>
      obtain ⟨source, joins, ext⟩ := clause
      rw [FromClause.unwrapOption, FromClause.clause, FromClause.clause]
      exact .step _ (source.unwraps.cons ((Join.unwrapsList joins).before _))

theorem Join.unwrapsList (joins : List Join) :
    Unwraps kind (Join.script joins) (Join.script (Join.unwrapList kind joins)) := by
  cases joins with
  | nil => exact .nil
  | cons join joins =>
      obtain ⟨words, source, on, ext⟩ := join
      rw [Join.unwrapList, Join.script, Join.script]
      exact .step _ (.after _ (.step _ (source.unwraps.cons (.step _
        (on.unwraps.cons (.after _ (Join.unwrapsList joins)))))))

theorem RowSource.unwraps (s : RowSource) : Unwraps kind s.script (s.unwrap kind).script := by
  cases s with
  | derived q label =>
      rw [RowSource.unwrap, RowSource.script, RowSource.script, RowSource.body, RowSource.body]
      exact .guarded (.step _ (q.unwraps.cons (.refl kind _)))
  | function e label =>
      rw [RowSource.unwrap, RowSource.script, RowSource.script, RowSource.body, RowSource.body]
      exact .guarded (.step _ (e.unwraps.cons (.refl kind _)))
  | _ => exact .refl kind _

end

/-! ### Definitions and statements -/

theorem Expr.unwraps_check (e : Expr) : Unwraps kind e.check (e.unwrap kind).check :=
  .step _ ((e.unwraps kind).cons (.refl kind _))

theorem ColumnRule.unwraps (rule : ColumnRule) :
    Unwraps kind rule.script (rule.unwrap kind).script := by
  cases rule with
  | check condition => exact condition.unwraps_check kind
  | _ => exact .refl kind _

theorem TableRule.unwraps (rule : TableRule) :
    Unwraps kind rule.script (rule.unwrap kind).script := by
  cases rule with
  | check condition => exact condition.unwraps_check kind
  | _ => exact .refl kind _

theorem DomainRule.unwraps (rule : DomainRule) :
    Unwraps kind rule.script (rule.unwrap kind).script :=
  rule.condition.unwraps_check kind

namespace Constraint

variable {kind} {Rule : Type} {f : Rule → Rule} {rule : Rule → Script}

theorem unwraps (h : ∀ x, Unwraps kind (rule x) (rule (f x))) (c : Constraint Rule) :
    Unwraps kind (c.scriptWith rule) ((c.mapRule f).scriptWith rule) :=
  (((Unwraps.refl kind _).append (h c.rule)).before _).before _

theorem unwraps_clauses (h : ∀ x, Unwraps kind (rule x) (rule (f x)))
    (cs : List (Constraint Rule)) :
    Unwraps kind (clauses rule cs) (clauses rule (cs.map (mapRule f))) :=
  .flatMap (fun c => .text " " :: c.scriptWith rule) (fun c => .step _ (unwraps h c)) cs

end Constraint

theorem Column.unwraps (c : Column) : Unwraps kind c.script (c.unwrap kind).script := by
  have hconstraints := Constraint.unwraps_clauses (ColumnRule.unwraps kind) c.constraints
  exact .step _ (.step _ (((Unwraps.after _ hconstraints).before _).before _))

theorem TableDef.unwraps (d : TableDef) : Unwraps kind d.script (d.unwrap kind).script := by
  have hparts := List.rel_append (Unwraps.map (Column.unwraps kind) d.columns)
    (Unwraps.map (Constraint.unwraps (TableRule.unwraps kind)) d.constraints)
  exact .step _ (.step _ (.step _ (.after _ (.step _ ((Unwraps.commas hparts).before _)))))

theorem ViewDef.unwraps (d : ViewDef) : Unwraps kind d.script (d.unwrap kind).script :=
  .step _ (.after _ (.step _ ((d.query.unwraps kind).cons (.refl kind _))))

theorem DomainDef.unwraps (d : DomainDef) : Unwraps kind d.script (d.unwrap kind).script := by
  have hconstraints := Constraint.unwraps_clauses (DomainRule.unwraps kind) d.constraints
  exact .step _ (.after _ (.step _ (((Unwraps.after _ hconstraints).before _).before _)))

theorem SchemaElement.unwraps (e : SchemaElement) :
    Unwraps kind e.script (e.unwrap kind).script := by
  cases e with
  | table d => exact d.unwraps kind
  | view d => exact d.unwraps kind
  | domain d => exact d.unwraps kind
  | grant g => exact .refl kind _

theorem SchemaDef.unwraps (d : SchemaDef) : Unwraps kind d.script (d.unwrap kind).script := by
  have helements := Unwraps.flatMap (fun e => [.text " ", .guarded (SchemaElement.script e)])
    (fun e => .step _ (.guarded (e.unwraps kind))) d.elements
  exact .step _ ((Unwraps.after _ helements).before _)

theorem TableChange.unwraps (change : TableChange) :
    Unwraps kind change.script (change.unwrap kind).script := by
  cases change with
  | addColumn column => exact .step _ (column.unwraps kind)
  | addConstraint constraint =>
      exact .step _ (Constraint.unwraps (TableRule.unwraps kind) constraint)
  | _ => exact .refl kind _

theorem DomainChange.unwraps (change : DomainChange) :
    Unwraps kind change.script (change.unwrap kind).script := by
  cases change with
  | addConstraint constraint =>
      exact .step _ (Constraint.unwraps (DomainRule.unwraps kind) constraint)
  | _ => exact .refl kind _

theorem Cell.unwraps (cell : Cell) : Unwraps kind cell.script (cell.unwrap kind).script := by
  cases cell with
  | value e => exact e.unwraps kind
  | default => exact .refl kind _

theorem Cell.unwraps_row (cells : List Cell) :
    Unwraps kind (Cell.row cells) (Cell.row (cells.map (Cell.unwrap kind))) :=
  .step _ ((Unwraps.commas (Unwraps.map (Cell.unwraps kind) cells)).before _)

theorem InsertRows.unwraps (rows : InsertRows) :
    Unwraps kind rows.script (rows.unwrap kind).script := by
  cases rows with
  | values rows => exact .step _ (Unwraps.commas (Unwraps.map (Cell.unwraps_row kind) rows))
  | query q => exact .step _ (q.unwraps kind)
  | defaultValues => exact .refl kind _

theorem Insert.unwraps (i : Insert) : Unwraps kind i.script (i.unwrap kind).script :=
  .step _ ((Unwraps.after _ (i.rows.unwraps kind)).before _)

theorem Assignment.unwraps (a : Assignment) : Unwraps kind a.script (a.unwrap kind).script :=
  .step _ (.step _ (a.value.unwraps kind))

theorem Update.unwraps (u : Update) : Unwraps kind u.script (u.unwrap kind).script := by
  have hassignments := Unwraps.commas (Unwraps.map (Assignment.unwraps kind) u.assignments)
  have hfilter := Expr.unwrapsOption kind " WHERE " u.filter
  exact .step _ (.after _ (.step _ ((hassignments.append hfilter).before _)))

theorem Delete.unwraps (d : Delete) : Unwraps kind d.script (d.unwrap kind).script :=
  .step _ ((Unwraps.after _ (Expr.unwrapsOption kind " WHERE " d.filter)).before _)

theorem Statement.unwraps (s : Statement) : Unwraps kind s.script (s.unwrap kind).script := by
  cases s with
  | query q => exact .guarded (q.unwraps kind)
  | createSchema d => exact .guarded (d.unwraps kind)
  | createTable d => exact .guarded (d.unwraps kind)
  | createView d => exact .guarded (d.unwraps kind)
  | createDomain d => exact .guarded (d.unwraps kind)
  | alterTable a =>
      have hchange := (a.change.unwraps kind).before (Extension.slot "AlterTable" a.ext)
      exact .guarded (.step _ (.after _ (.step _ hchange)))
  | alterDomain a =>
      have hchange := (a.change.unwraps kind).before (Extension.slot "AlterDomain" a.ext)
      exact .guarded (.step _ (.after _ (.step _ hchange)))
  | insert i => exact .guarded (i.unwraps kind)
  | update u => exact .guarded (u.unwraps kind)
  | delete d => exact .guarded (d.unwraps kind)
  | _ => exact .refl kind _

theorem Tree.unwraps (t : Tree) : Unwraps kind t.script (t.unwrap kind).script := by
  cases t with
  | expr e => exact e.unwraps kind
  | query q => exact q.unwraps kind
  | select s => exact s.unwraps kind
  | source s => exact s.unwraps kind
  | statement s => exact s.unwraps kind

end TypedSql
