import TypedSql.Proofs.Relabel
import TypedSql.Proofs.Tree

/-! The scripts of relabeled trees. -/

namespace TypedSql

variable (ρ : Relabeling)

mutual

/-- Relabels what a step writes, also in the scripts that it may go on with. -/
def Step.relabel : Step → Step
  | .text s => .text s
  | .ident i => .ident (ρ.ident i)
  | .literal l => .literal (ρ.literal l)
  | .guarded body => .guarded (Script.relabel body)
  | .custom family node => .custom family node
  | .fail e => .fail e
  | .attempt body rescue => .attempt (Script.relabel body) fun e => Script.relabel (rescue e)
  | .inspect next => .inspect fun snapshot => Script.relabel (next snapshot)

def Script.relabel : List Step → List Step
  | [] => []
  | step :: steps => step.relabel :: Script.relabel steps

end

namespace Script

@[simp] theorem relabel_nil : relabel ρ [] = [] := rfl

@[simp] theorem relabel_cons (step : Step) (steps : Script) :
    relabel ρ (step :: steps) = step.relabel ρ :: relabel ρ steps := rfl

@[simp] theorem relabel_append (s t : Script) :
    relabel ρ (s ++ t) = relabel ρ s ++ relabel ρ t := by
  induction s with
  | nil => rfl
  | cons step steps ih => rw [List.cons_append, relabel_cons, ih, relabel_cons, List.cons_append]

@[simp] theorem relabel_flatMap {α : Type} (f : α → Script) (xs : List α) :
    relabel ρ (xs.flatMap f) = xs.flatMap fun x => relabel ρ (f x) := by
  induction xs with
  | nil => rfl
  | cons x xs ih => rw [List.flatMap_cons, relabel_append, ih, List.flatMap_cons]

theorem relabel_intercalate (w : String) (parts : List Script) :
    relabel ρ ([Step.text w].intercalate parts)
      = [Step.text w].intercalate (parts.map (relabel ρ)) := by
  induction parts with
  | nil => rfl
  | cons part parts ih =>
      cases parts with
      | nil =>
          rw [List.intercalate_singleton, List.map_singleton, List.intercalate_singleton]
      | cons next parts =>
          rw [List.map_cons] at ih
          rw [List.map_cons, List.map_cons, List.intercalate_cons_cons,
            List.intercalate_cons_cons, relabel_append, relabel_append, ih]
          rfl

/-- Scripts of relabeled parts, given how one part is relabeled. -/
theorem map_relabel {α : Type} {f : α → α} {script : α → Script}
    (h : ∀ x, script (f x) = relabel ρ (script x)) (xs : List α) :
    (xs.map f).map script = (xs.map script).map (relabel ρ) := by
  rw [List.map_map, List.map_map]
  exact List.map_congr_left fun x _ => h x

@[simp] theorem relabel_commas (parts : List Script) :
    relabel ρ (commas parts) = commas (parts.map (relabel ρ)) :=
  relabel_intercalate ρ ", " parts

@[simp] theorem relabel_chain (segments : List Ident) :
    relabel ρ (chain segments) = chain (segments.map ρ.ident) := by
  rw [chain, relabel_intercalate, List.map_map, chain, List.map_map]
  rfl

@[simp] theorem relabel_idents (is : List Ident) :
    relabel ρ (idents is) = idents (is.map ρ.ident) := by
  rw [idents, relabel_cons, relabel_append, relabel_commas, List.map_map, idents, List.map_map]
  rfl

@[simp] theorem relabel_columns (is : List Ident) :
    relabel ρ (columns is) = columns (is.map ρ.ident) := by
  cases is with
  | nil => rfl
  | cons i is => exact congrArg (List.cons (Step.text " ")) (relabel_idents ρ (i :: is))

@[simp] theorem relabel_compound (segments : List Ident) :
    relabel ρ (compound segments) = compound (segments.map ρ.ident) := by
  rw [compound, compound, List.length_map]
  by_cases h : segments.length < 2
  · rw [if_pos h, if_pos h]
    rfl
  · rw [if_neg h, if_neg h]
    exact relabel_chain ρ segments

@[simp] theorem relabel_precision (p : Option Nat) :
    relabel ρ (precision p) = precision p := by
  cases p <;> rfl

@[simp] theorem relabel_slot (family : String) (ext : Option Extension) :
    relabel ρ (Extension.slot family ext) = Extension.slot family ext := by
  cases ext <;> rfl

@[simp] theorem relabel_type (t : DataType) : relabel ρ t.script = t.script := by
  cases t with
  | numeric p s => cases p <;> cases s <;> rfl
  | decimal p s => cases p <;> cases s <;> rfl
  | char p => cases p <;> rfl
  | varchar p => cases p <;> rfl
  | float p => cases p <;> rfl
  | time p zoned => cases p <;> cases zoned <;> rfl
  | timestamp p zoned => cases p <;> cases zoned <;> rfl
  | _ => rfl

@[simp] theorem relabel_joinKind (kind : JoinKind) : relabel ρ kind.script = kind.script := by
  cases kind <;> rfl

end Script

@[simp] theorem Name.script_relabel (name : Name) :
    (name.relabel ρ).script = Script.relabel ρ name.script := by
  cases name with
  | simple i => rfl
  | compound segments => exact (Script.relabel_compound ρ segments).symm

@[simp] theorem Name.clause_relabel (lead : String) (name : Option Name) :
    Name.clause lead (name.map (Name.relabel ρ)) = Script.relabel ρ (Name.clause lead name) := by
  cases name with
  | none => rfl
  | some name => exact congrArg (List.cons (Step.text lead)) (name.script_relabel ρ)

theorem Expr.isEmpty_relabelList (es : List Expr) :
    (Expr.relabelList ρ es).isEmpty = es.isEmpty := by
  cases es <;> rfl

theorem Cte.isEmpty_relabelList (ctes : List Cte) :
    (Cte.relabelList ρ ctes).isEmpty = ctes.isEmpty := by
  rcases ctes with _ | ⟨⟨_, _, _, _⟩, _⟩ <;> rfl

theorem OrderKey.isEmpty_relabelList (keys : List OrderKey) :
    (OrderKey.relabelList ρ keys).isEmpty = keys.isEmpty := by
  rcases keys with _ | ⟨⟨_, _, _, _⟩, _⟩ <;> rfl

mutual

theorem Expr.body_relabel (e : Expr) : (e.relabel ρ).body = Script.relabel ρ e.body := by
  cases e with
  | ident i => rfl
  | compound segments => exact (Script.relabel_compound ρ segments).symm
  | wildcard => rfl
  | qualifiedWildcard qualifiers =>
      cases qualifiers with
      | nil => rfl
      | cons i is =>
          rw [Expr.relabel, Expr.body, Expr.body]
          simp [Step.relabel]
  | binary left op right =>
      rw [Expr.relabel, Expr.body, left.body_relabel, right.body_relabel, Expr.body]
      rfl
  | unary op operand =>
      rw [Expr.relabel, Expr.body, operand.body_relabel, Expr.body]
      rfl
  | between e negated low high =>
      rw [Expr.relabel, Expr.body, e.body_relabel, low.body_relabel, high.body_relabel, Expr.body]
      rfl
  | caseOf operand arms otherwise =>
      rw [Expr.relabel, Expr.body, Expr.clause_relabel, CaseArm.script_relabel,
        Expr.clause_relabel, Expr.body]
      simp [Step.relabel]
  | cast e type =>
      rw [Expr.relabel, Expr.body, e.body_relabel, Expr.body]
      simp [Step.relabel]
  | collate e collation =>
      rw [Expr.relabel, Expr.body, e.body_relabel, Name.script_relabel, Expr.body]
      rfl
  | existsQuery q =>
      rw [Expr.relabel, Expr.body, q.body_relabel, Expr.body]
      rfl
  | extract field source =>
      rw [Expr.relabel, Expr.body, source.body_relabel, Expr.body]
      rfl
  | apply function args =>
      rw [Expr.relabel, Expr.body, function.body_relabel, Expr.scripts_relabel, Expr.body]
      simp [Step.relabel]
  | isNull e negated =>
      rw [Expr.relabel, Expr.body, e.body_relabel, Expr.body]
      rfl
  | inList e list negated =>
      rw [Expr.relabel, Expr.body, e.body_relabel, Expr.scripts_relabel, Expr.body]
      simp [Step.relabel]
  | inQuery e q negated =>
      rw [Expr.relabel, Expr.body, e.body_relabel, q.body_relabel, Expr.body]
      rfl
  | literal l => rfl
  | paren e =>
      rw [Expr.relabel, Expr.body, e.body_relabel, Expr.body]
      rfl
  | subquery q =>
      rw [Expr.relabel, Expr.body, q.body_relabel, Expr.body]
      rfl
  | custom node => rfl

theorem Expr.scripts_relabel (es : List Expr) :
    Expr.scripts (Expr.relabelList ρ es) = (Expr.scripts es).map (Script.relabel ρ) := by
  cases es with
  | nil => rfl
  | cons e es =>
      rw [Expr.relabelList, Expr.scripts, e.body_relabel, Expr.scripts_relabel es, Expr.scripts]
      rfl

theorem Expr.clause_relabel (lead : String) (e : Option Expr) :
    Expr.clause lead (Expr.relabelOption ρ e) = Script.relabel ρ (Expr.clause lead e) := by
  cases e with
  | none => rfl
  | some e =>
      rw [Expr.relabelOption, Expr.clause, e.body_relabel, Expr.clause]
      rfl

theorem CaseArm.script_relabel (arms : List CaseArm) :
    CaseArm.script (CaseArm.relabelList ρ arms) = Script.relabel ρ (CaseArm.script arms) := by
  cases arms with
  | nil => rfl
  | cons arm arms =>
      obtain ⟨condition, result⟩ := arm
      rw [CaseArm.relabelList, CaseArm.script, condition.body_relabel, result.body_relabel,
        CaseArm.script_relabel arms, CaseArm.script]
      rfl

theorem Query.body_relabel (q : Query) : (q.relabel ρ).body = Script.relabel ρ q.body := by
  obtain ⟨ctes, select, setOps, orderBy, limit, offset, ext⟩ := q
  rw [Query.relabel, Query.body, select.body_relabel, Cte.scripts_relabel, SetOp.script_relabel,
    OrderKey.scripts_relabel, Expr.clause_relabel, Expr.clause_relabel, Query.body]
  rw [Cte.isEmpty_relabelList, OrderKey.isEmpty_relabelList]
  cases ctes.isEmpty <;> cases orderBy.isEmpty <;> simp [Step.relabel]

theorem Cte.scripts_relabel (ctes : List Cte) :
    Cte.scripts (Cte.relabelList ρ ctes) = (Cte.scripts ctes).map (Script.relabel ρ) := by
  cases ctes with
  | nil => rfl
  | cons cte ctes =>
      obtain ⟨name, columns, query, ext⟩ := cte
      rw [Cte.relabelList, Cte.scripts, query.body_relabel, Cte.scripts_relabel ctes, Cte.scripts]
      simp [Step.relabel]

theorem SetOp.script_relabel (ops : List SetOp) :
    SetOp.script (SetOp.relabelList ρ ops) = Script.relabel ρ (SetOp.script ops) := by
  cases ops with
  | nil => rfl
  | cons op ops =>
      obtain ⟨operator, all, select, ext⟩ := op
      rw [SetOp.relabelList, SetOp.script, select.body_relabel, SetOp.script_relabel ops,
        SetOp.script]
      cases all <;> simp [Step.relabel]

theorem OrderKey.scripts_relabel (keys : List OrderKey) :
    OrderKey.scripts (OrderKey.relabelList ρ keys)
      = (OrderKey.scripts keys).map (Script.relabel ρ) := by
  cases keys with
  | nil => rfl
  | cons key keys =>
      obtain ⟨e, direction, nulls, ext⟩ := key
      rw [OrderKey.relabelList, OrderKey.scripts.eq_def, OrderKey.scripts.eq_def (_ :: keys)]
      dsimp only
      rw [e.body_relabel, OrderKey.scripts_relabel keys]
      cases direction <;> cases nulls <;> simp [Step.relabel]

theorem Select.body_relabel (s : Select) : (s.relabel ρ).body = Script.relabel ρ s.body := by
  obtain ⟨items, source, filter, groupBy, having, ext⟩ := s
  rw [Select.relabel, Select.body, SelectItem.scripts_relabel, FromClause.clause_relabel,
    Expr.clause_relabel, Expr.scripts_relabel, Expr.clause_relabel, Select.body]
  rw [Expr.isEmpty_relabelList]
  cases groupBy.isEmpty <;> simp [Step.relabel]

theorem SelectItem.scripts_relabel (items : List SelectItem) :
    SelectItem.scripts (SelectItem.relabelList ρ items)
      = (SelectItem.scripts items).map (Script.relabel ρ) := by
  cases items with
  | nil => rfl
  | cons item items =>
      obtain ⟨e, label⟩ := item
      rw [SelectItem.relabelList, SelectItem.scripts.eq_def, SelectItem.scripts.eq_def (_ :: items)]
      dsimp only
      rw [e.body_relabel, SelectItem.scripts_relabel items]
      cases label <;> simp [Step.relabel]

theorem FromClause.clause_relabel (source : Option FromClause) :
    FromClause.clause (FromClause.relabelOption ρ source)
      = Script.relabel ρ (FromClause.clause source) := by
  cases source with
  | none => rfl
  | some clause =>
      obtain ⟨source, joins, ext⟩ := clause
      rw [FromClause.relabelOption, FromClause.clause, source.body_relabel, Join.script_relabel,
        FromClause.clause]
      simp [Step.relabel]

theorem Join.script_relabel (joins : List Join) :
    Join.script (Join.relabelList ρ joins) = Script.relabel ρ (Join.script joins) := by
  cases joins with
  | nil => rfl
  | cons join joins =>
      obtain ⟨kind, source, on, ext⟩ := join
      rw [Join.relabelList, Join.script, source.body_relabel, on.body_relabel,
        Join.script_relabel joins, Join.script]
      simp [Step.relabel]

theorem RowSource.body_relabel (s : RowSource) :
    (s.relabel ρ).body = Script.relabel ρ s.body := by
  cases s with
  | table name => exact name.script_relabel ρ
  | derived q label =>
      rw [RowSource.relabel, RowSource.body, q.body_relabel, RowSource.body]
      rfl
  | function e label =>
      rw [RowSource.relabel, RowSource.body, e.body_relabel, RowSource.body]
      rfl
  | custom node => rfl

end

/-! ### Definitions and statements -/

theorem DefaultValue.script_relabel (d : DefaultValue) :
    (d.relabel ρ).script = Script.relabel ρ d.script := by
  cases d with
  | currentTime p => cases p <;> rfl
  | currentTimestamp p => cases p <;> rfl
  | _ => rfl

@[simp] theorem DefaultValue.clause_relabel (d : Option DefaultValue) :
    DefaultValue.clause (d.map (DefaultValue.relabel ρ))
      = Script.relabel ρ (DefaultValue.clause d) := by
  cases d with
  | none => rfl
  | some d => exact congrArg (List.cons (Step.text " ")) (d.script_relabel ρ)

theorem Unique.script_relabel (u : Unique) :
    (u.relabel ρ).script = Script.relabel ρ u.script := by
  rw [Unique.script, Unique.relabel, Unique.script]
  simp [Step.relabel]

@[simp] theorem ReferentialAction.clause_relabel (lead : String) (a : Option ReferentialAction) :
    Script.relabel ρ (ReferentialAction.clause lead a) = ReferentialAction.clause lead a := by
  cases a <;> rfl

theorem Reference.script_relabel (r : Reference) :
    (r.relabel ρ).script = Script.relabel ρ r.script := by
  rw [Reference.script, Reference.relabel, Reference.script]
  cases hr : r.referring <;> simp [Step.relabel]

theorem Expr.check_relabel (e : Expr) : (e.relabel ρ).check = Script.relabel ρ e.check := by
  rw [Expr.check, e.body_relabel, Expr.check]
  rfl

theorem ColumnRule.script_relabel (rule : ColumnRule) :
    (rule.relabel ρ).script = Script.relabel ρ rule.script := by
  cases rule with
  | notNull => rfl
  | unique u => exact u.script_relabel ρ
  | references r => exact r.script_relabel ρ
  | check condition => exact condition.check_relabel ρ
  | custom node => rfl

theorem TableRule.script_relabel (rule : TableRule) :
    (rule.relabel ρ).script = Script.relabel ρ rule.script := by
  cases rule with
  | unique u => exact u.script_relabel ρ
  | references r => exact r.script_relabel ρ
  | check condition => exact condition.check_relabel ρ
  | custom node => rfl

theorem DomainRule.script_relabel (rule : DomainRule) :
    (rule.relabel ρ).script = Script.relabel ρ rule.script :=
  rule.condition.check_relabel ρ

@[simp] theorem CheckTime.clause_relabel (t : Option CheckTime) :
    Script.relabel ρ (CheckTime.clause t) = CheckTime.clause t := by
  cases t with
  | none => rfl
  | some t =>
      rw [CheckTime.clause]
      simp [Step.relabel]

namespace Constraint

variable {Rule : Type} {script : Rule → Script} {rule : Rule → Rule}

theorem scriptWith_relabel (h : ∀ x, script (rule x) = Script.relabel ρ (script x))
    (c : Constraint Rule) :
    (c.relabelWith ρ rule).scriptWith script = Script.relabel ρ (c.scriptWith script) := by
  rw [scriptWith, relabelWith, scriptWith]
  cases hc : c.name <;> simp [Step.relabel, h]

theorem clauses_relabel (h : ∀ x, script (rule x) = Script.relabel ρ (script x))
    (cs : List (Constraint Rule)) :
    clauses script (cs.map (relabelWith ρ rule)) = Script.relabel ρ (clauses script cs) := by
  rw [clauses, clauses, Script.relabel_flatMap, List.flatMap_map]
  congr 1
  funext c
  rw [scriptWith_relabel ρ h]
  rfl

end Constraint

@[simp] theorem ColumnType.script_relabel (t : ColumnType) :
    (t.relabel ρ).script = Script.relabel ρ t.script := by
  cases t with
  | type t => exact (Script.relabel_type ρ t).symm
  | domain name => exact name.script_relabel ρ

theorem Column.script_relabel (c : Column) :
    (c.relabel ρ).script = Script.relabel ρ c.script := by
  rw [Column.script, Column.relabel, Column.script,
    Constraint.clauses_relabel ρ (ColumnRule.script_relabel ρ)]
  simp [Step.relabel]

theorem TableDef.script_relabel (d : TableDef) :
    (d.relabel ρ).script = Script.relabel ρ d.script := by
  have hconstraint := Constraint.scriptWith_relabel ρ (TableRule.script_relabel ρ)
  rw [TableDef.script, TableDef.relabel, TableDef.script,
    Script.map_relabel ρ (Column.script_relabel ρ), Script.map_relabel ρ hconstraint]
  cases hc : d.onCommit <;> simp [Step.relabel]

theorem ViewDef.script_relabel (d : ViewDef) :
    (d.relabel ρ).script = Script.relabel ρ d.script := by
  rw [ViewDef.script, ViewDef.relabel, ViewDef.script, d.query.body_relabel]
  cases hc : d.checkOption <;> simp [Step.relabel]

theorem DomainDef.script_relabel (d : DomainDef) :
    (d.relabel ρ).script = Script.relabel ρ d.script := by
  rw [DomainDef.script, DomainDef.relabel, DomainDef.script,
    Constraint.clauses_relabel ρ (DomainRule.script_relabel ρ)]
  simp [Step.relabel]

theorem Privilege.columns?_relabel (p : Privilege) :
    (p.relabel ρ).columns? = p.columns?.map (List.map ρ.ident) := by
  have hfilter (columns : Option (List Ident)) :
      (columns.map (List.map ρ.ident)).filter (!·.isEmpty)
        = (columns.filter (!·.isEmpty)).map (List.map ρ.ident) := by
    rcases columns with _ | _ | ⟨i, is⟩ <;> rfl
  cases p with
  | insert columns => exact hfilter columns
  | update columns => exact hfilter columns
  | references columns => exact hfilter columns
  | _ => rfl

theorem Privilege.script_relabel (p : Privilege) :
    (p.relabel ρ).script = Script.relabel ρ p.script := by
  have hkeyword : (p.relabel ρ).keyword = p.keyword := by cases p <;> rfl
  rw [Privilege.script, hkeyword, p.columns?_relabel, Privilege.script]
  cases p.columns? with
  | none => rfl
  | some columns =>
      exact congrArg (fun s => Step.text p.keyword :: .text " " :: s)
        (Script.relabel_idents ρ columns).symm

@[simp] theorem Privilege.list_relabel (privileges : Option (List Privilege)) :
    Privilege.list (privileges.map (List.map (Privilege.relabel ρ)))
      = Script.relabel ρ (Privilege.list privileges) := by
  cases privileges with
  | none => rfl
  | some privileges =>
      rw [Option.map_some, Privilege.list, Script.map_relabel ρ (Privilege.script_relabel ρ),
        Privilege.list, Script.relabel_commas]

@[simp] theorem Script.grantees_relabel (names : Option (List Ident)) :
    Script.grantees (names.map (List.map ρ.ident))
      = Script.relabel ρ (Script.grantees names) := by
  cases names with
  | none => rfl
  | some names =>
      rw [Option.map_some, Script.grantees, List.map_map, Script.grantees, Script.relabel_commas,
        List.map_map]
      rfl

@[simp] theorem ObjectKind.target_relabel (kind : ObjectKind) (object : Name) :
    kind.target (object.relabel ρ) = Script.relabel ρ (kind.target object) := by
  rw [ObjectKind.target, object.script_relabel, ObjectKind.target]
  rfl

theorem Grant.script_relabel (g : Grant) :
    (g.relabel ρ).script = Script.relabel ρ g.script := by
  rw [Grant.script, Grant.relabel, Grant.script]
  cases hg : g.grantOption <;> simp [Step.relabel]

theorem Revoke.script_relabel (r : Revoke) :
    (r.relabel ρ).script = Script.relabel ρ r.script := by
  rw [Revoke.script, Revoke.relabel, Revoke.script]
  cases hr : r.grantOption <;> simp [Step.relabel]

theorem SchemaElement.script_relabel (e : SchemaElement) :
    (e.relabel ρ).script = Script.relabel ρ e.script := by
  cases e with
  | table d => exact d.script_relabel ρ
  | view d => exact d.script_relabel ρ
  | domain d => exact d.script_relabel ρ
  | grant g => exact g.script_relabel ρ

theorem SchemaDef.script_relabel (d : SchemaDef) :
    (d.relabel ρ).script = Script.relabel ρ d.script := by
  rw [SchemaDef.script, SchemaDef.relabel, SchemaDef.script]
  cases hd : d.authorization <;>
    simp [Step.relabel, List.flatMap_map, SchemaElement.script_relabel]

theorem TableChange.script_relabel (change : TableChange) :
    (change.relabel ρ).script = Script.relabel ρ change.script := by
  cases change with
  | addColumn column =>
      exact congrArg (List.cons (Step.text "ADD COLUMN ")) (column.script_relabel ρ)
  | alterColumn column change =>
      cases change with
      | set value =>
          exact congrArg (fun s => Step.text "ALTER COLUMN " :: .ident (ρ.ident column)
            :: .text " SET " :: s) (value.script_relabel ρ)
      | drop => rfl
  | dropColumn column behavior => rfl
  | addConstraint constraint =>
      exact congrArg (List.cons (Step.text "ADD "))
        (Constraint.scriptWith_relabel ρ (TableRule.script_relabel ρ) constraint)
  | dropConstraint name behavior => rfl

theorem AlterTable.script_relabel (a : AlterTable) :
    (a.relabel ρ).script = Script.relabel ρ a.script := by
  rw [AlterTable.script, AlterTable.relabel, AlterTable.script, a.change.script_relabel]
  simp [Step.relabel]

theorem DomainChange.script_relabel (change : DomainChange) :
    (change.relabel ρ).script = Script.relabel ρ change.script := by
  cases change with
  | setDefault value =>
      exact congrArg (List.cons (Step.text "SET ")) (value.script_relabel ρ)
  | dropDefault => rfl
  | addConstraint constraint =>
      exact congrArg (List.cons (Step.text "ADD "))
        (Constraint.scriptWith_relabel ρ (DomainRule.script_relabel ρ) constraint)
  | dropConstraint name => rfl

theorem AlterDomain.script_relabel (a : AlterDomain) :
    (a.relabel ρ).script = Script.relabel ρ a.script := by
  rw [AlterDomain.script, AlterDomain.relabel, AlterDomain.script, a.change.script_relabel]
  simp [Step.relabel]

theorem Drop.script_relabel (d : Drop) : (d.relabel ρ).script = Script.relabel ρ d.script := by
  rw [Drop.script, Drop.relabel, Drop.script]
  simp [Step.relabel]

theorem Cell.script_relabel (cell : Cell) :
    (cell.relabel ρ).script = Script.relabel ρ cell.script := by
  cases cell with
  | value e =>
      rw [Cell.script, Cell.relabel, Cell.script, e.body_relabel]
      rfl
  | default => rfl

theorem Cell.row_relabel (cells : List Cell) :
    Cell.row (cells.map (Cell.relabel ρ)) = Script.relabel ρ (Cell.row cells) := by
  rw [Cell.row, Script.map_relabel ρ (Cell.script_relabel ρ), Cell.row]
  simp [Step.relabel]

theorem InsertRows.script_relabel (rows : InsertRows) :
    (rows.relabel ρ).script = Script.relabel ρ rows.script := by
  cases rows with
  | values rows =>
      rw [InsertRows.relabel, InsertRows.script, Script.map_relabel ρ (Cell.row_relabel ρ),
        InsertRows.script]
      simp [Step.relabel]
  | query q =>
      rw [InsertRows.relabel, InsertRows.script, q.body_relabel, InsertRows.script]
      rfl
  | defaultValues => rfl

theorem Insert.script_relabel (i : Insert) :
    (i.relabel ρ).script = Script.relabel ρ i.script := by
  rw [Insert.script, Insert.relabel, Insert.script, i.rows.script_relabel]
  simp [Step.relabel]

theorem Assignment.script_relabel (a : Assignment) :
    (a.relabel ρ).script = Script.relabel ρ a.script := by
  rw [Assignment.script, Assignment.relabel, Assignment.script, a.value.script_relabel]
  rfl

theorem Update.script_relabel (u : Update) :
    (u.relabel ρ).script = Script.relabel ρ u.script := by
  rw [Update.script, Update.relabel, Update.script,
    Script.map_relabel ρ (Assignment.script_relabel ρ), Expr.clause_relabel]
  simp [Step.relabel]

theorem Delete.script_relabel (d : Delete) :
    (d.relabel ρ).script = Script.relabel ρ d.script := by
  rw [Delete.script, Delete.relabel, Delete.script, Expr.clause_relabel]
  simp [Step.relabel]

theorem Statement.body_relabel (s : Statement) :
    (s.relabel ρ).body = Script.relabel ρ s.body := by
  cases s with
  | query q =>
      rw [Statement.relabel, Statement.body, Query.script, q.body_relabel]
      rfl
  | createSchema d => exact d.script_relabel ρ
  | createTable d => exact d.script_relabel ρ
  | createView d => exact d.script_relabel ρ
  | createDomain d => exact d.script_relabel ρ
  | grant g => exact g.script_relabel ρ
  | revoke r => exact r.script_relabel ρ
  | alterTable a => exact a.script_relabel ρ
  | alterDomain a => exact a.script_relabel ρ
  | drop d => exact d.script_relabel ρ
  | insert i => exact i.script_relabel ρ
  | update u => exact u.script_relabel ρ
  | delete d => exact d.script_relabel ρ

namespace Tree

def relabel : Tree → Tree
  | expr e => expr (e.relabel ρ)
  | query q => query (q.relabel ρ)
  | select s => select (s.relabel ρ)
  | source s => source (s.relabel ρ)
  | statement s => statement (s.relabel ρ)

theorem kind_relabel (t : Tree) : (t.relabel ρ).kind = t.kind := by
  cases t with
  | statement s => cases s <;> rfl
  | _ => rfl

theorem script_relabel (t : Tree) : (t.relabel ρ).script = Script.relabel ρ t.script := by
  cases t with
  | expr e => exact congrArg (fun body => [Step.guarded body]) (e.body_relabel ρ)
  | query q => exact congrArg (fun body => [Step.guarded body]) (q.body_relabel ρ)
  | select s => exact congrArg (fun body => [Step.guarded body]) (s.body_relabel ρ)
  | source s => exact congrArg (fun body => [Step.guarded body]) (s.body_relabel ρ)
  | statement s => exact congrArg (fun body => [Step.guarded body]) (s.body_relabel ρ)

end Tree

end TypedSql
