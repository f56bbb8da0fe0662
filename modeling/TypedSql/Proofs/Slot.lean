import TypedSql.Proofs.Carry

/-! Slots. An open slot is a node with one of its slots left to be filled, or the slot of a part of it
that is no node of a category. The script of the part that has the slot is its script with an empty
slot and then what is in the slot. -/

namespace TypedSql

/-- The script of the first common table expression is the one that it has alone. -/
theorem Cte.scripts_cons (cte : Cte) (ctes : List Cte) :
    Cte.scripts (cte :: ctes) = Script.commas (Cte.scripts [cte]) :: Cte.scripts ctes := by
  obtain ⟨name, columns, query, ext⟩ := cte
  rw [scripts, scripts, scripts, Script.commas, List.intercalate_singleton]

theorem OrderKey.scripts_cons (key : OrderKey) (keys : List OrderKey) : OrderKey.scripts (key :: keys) =
    Script.commas (OrderKey.scripts [key]) :: OrderKey.scripts keys := by
  obtain ⟨e, direction, nulls, ext⟩ := key
  rw [scripts.eq_def, scripts.eq_def [_], Script.commas]
  dsimp only
  rw [scripts.eq_def [], List.intercalate_singleton]

/-- A rule with its slot open. -/
inductive RuleSlot where
  | unique (u : Unique)
  | references (r : Reference)

namespace RuleSlot

def family : RuleSlot → String
  | unique _ => "UniqueConstraint"
  | references _ => "ReferenceConstraint"

def script : RuleSlot → Option Extension → Script
  | unique u, ext => Unique.script { u with ext := ext }
  | references r, ext => Reference.script { r with ext := ext }

/-- The rule of a column. -/
def onColumn : RuleSlot → Option Extension → ColumnRule
  | unique u, ext => .unique { u with ext := ext }
  | references r, ext => .references { r with ext := ext }

/-- The rule of a table. -/
def onTable : RuleSlot → Option Extension → TableRule
  | unique u, ext => .unique { u with ext := ext }
  | references r, ext => .references { r with ext := ext }

theorem script_eq (slot : RuleSlot) (ext : Option Extension) :
    slot.script ext = slot.script none ++ Extension.slot slot.family ext := by
  cases slot with
  | unique u => simp [script, family, Unique.script, Extension.slot]
  | references r => simp [script, family, Reference.script, Extension.slot]

theorem carries_onColumn (slot : RuleSlot) :
    Carries slot.script fun ext => (slot.onColumn ext).script := by
  cases slot <;> exact .here

theorem carries_onTable (slot : RuleSlot) :
    Carries slot.script fun ext => (slot.onTable ext).script := by
  cases slot <;> exact .here

end RuleSlot

/-- A constraint with a slot open: its own, the one of its check time, or one in its rule. -/
inductive ConstraintSlot (Rule Inner : Type) where
  | whole (c : Constraint Rule)
  | checkTime (c : Constraint Rule) (t : CheckTime)
  | rule (c : Constraint Rule) (slot : Inner)

namespace ConstraintSlot

variable {Rule Inner : Type}

def fill (rule : Inner → Option Extension → Rule) :
    ConstraintSlot Rule Inner → Option Extension → Constraint Rule
  | whole c, ext => { c with ext := ext }
  | checkTime c t, ext => { c with checkTime := some { t with ext := ext } }
  | .rule c slot, ext => { c with rule := rule slot ext }

def family (inner : Inner → String) : ConstraintSlot Rule Inner → String
  | whole _ => "ConstraintDefinition"
  | checkTime _ _ => "ConstraintCheckTime"
  | rule _ slot => inner slot

/-- The script of the part that has the slot. -/
def script (rule : Rule → Script) (inner : Inner → Option Extension → Script) :
    ConstraintSlot Rule Inner → Option Extension → Script
  | whole c, ext => Constraint.scriptWith rule { c with ext := ext }
  | checkTime _ t, ext => CheckTime.clause (some { t with ext := ext })
  | .rule _ slot, ext => inner slot ext

theorem script_eq {rule : Rule → Script} {inner : Inner → Option Extension → Script}
    {label : Inner → String}
    (hinner : ∀ slot ext, inner slot ext = inner slot none ++ Extension.slot (label slot) ext)
    (slot : ConstraintSlot Rule Inner) (ext : Option Extension) :
    slot.script rule inner ext =
      slot.script rule inner none ++ Extension.slot (slot.family label) ext := by
  cases slot with
  | whole c => simp [script, family, Constraint.scriptWith, Extension.slot]
  | checkTime c t => simp [script, family, CheckTime.clause, Extension.slot]
  | rule c slot => exact hinner slot ext

theorem carries {rule : Rule → Script} {inner : Inner → Option Extension → Script}
    {put : Inner → Option Extension → Rule}
    (hinner : ∀ slot, Carries (inner slot) fun ext => rule (put slot ext))
    (slot : ConstraintSlot Rule Inner) :
    Carries (slot.script rule inner) fun ext => Constraint.scriptWith rule (slot.fill put ext) := by
  cases slot with
  | whole c => exact .here
  | checkTime c t =>
      simp only [fill, Constraint.scriptWith]
      exact .append (.prepend _ .here) _
  | rule c slot => exact Constraint.carries_with rule (put slot) (hinner slot) c

/-- A rule without slots. -/
theorem carries_empty (rule : Rule → Script) (slot : ConstraintSlot Rule Empty) :
    Carries (slot.script rule Empty.elim) fun ext =>
      Constraint.scriptWith rule (slot.fill Empty.elim ext) :=
  slot.carries fun inner => inner.elim

end ConstraintSlot

/-- A node of a category with a slot open somewhere in it, other than in a node of a category below. -/
inductive Slot : Category → Type
  | query (q : Query) : Slot .query
  | cte (q : Query) (before : List Cte) (item : Cte) (after : List Cte) : Slot .query
  | setOp (q : Query) (before : List SetOp) (op : SetOp) (after : List SetOp) : Slot .query
  | sortKey (q : Query) (before : List OrderKey) (key : OrderKey) (after : List OrderKey) :
      Slot .query
  | select (s : Select) : Slot .select
  | fromClause (s : Select) (clause : FromClause) : Slot .select
  | join (s : Select) (clause : FromClause) (before : List Join) (item : Join)
      (after : List Join) : Slot .select
  | column (c : Column) : Slot .column
  | columnConstraint (c : Column) (before : List (Constraint ColumnRule))
      (slot : ConstraintSlot ColumnRule RuleSlot) (after : List (Constraint ColumnRule)) :
      Slot .column
  | table (d : TableDef) : Slot .element
  | tableConstraint (d : TableDef) (before : List (Constraint TableRule))
      (slot : ConstraintSlot TableRule RuleSlot) (after : List (Constraint TableRule)) :
      Slot .element
  | view (d : ViewDef) : Slot .element
  | domain (d : DomainDef) : Slot .element
  | domainConstraint (d : DomainDef) (before : List (Constraint DomainRule))
      (slot : ConstraintSlot DomainRule Empty) (after : List (Constraint DomainRule)) :
      Slot .element
  | grant (g : Grant) : Slot .element
  | schema (d : SchemaDef) : Slot .statement
  | revoke (r : Revoke) : Slot .statement
  | alterTable (a : AlterTable) : Slot .statement
  | addTableConstraint (a : AlterTable) (slot : ConstraintSlot TableRule RuleSlot) :
      Slot .statement
  | alterDomain (a : AlterDomain) : Slot .statement
  | addDomainConstraint (a : AlterDomain) (slot : ConstraintSlot DomainRule Empty) :
      Slot .statement
  | drop (d : Drop) : Slot .statement
  | insert (i : Insert) : Slot .statement
  | update (u : Update) : Slot .statement
  | delete (d : Delete) : Slot .statement

namespace Slot

/-- The node with an extension in the slot, or with nothing there. -/
def fill {a : Category} : Slot a → Option Extension → Node a
  | query q, ext => { q with ext := ext }
  | cte q before item after, ext =>
    { q with ctes := before ++ { item with ext := ext } :: after }
  | setOp q before op after, ext =>
    { q with setOps := before ++ { op with ext := ext } :: after }
  | sortKey q before key after, ext =>
    { q with orderBy := before ++ { key with ext := ext } :: after }
  | select s, ext => { s with ext := ext }
  | fromClause s clause, ext => { s with source := some { clause with ext := ext } }
  | join s clause before item after, ext =>
    { s with
      source := some { clause with joins := before ++ { item with ext := ext } :: after } }
  | column c, ext => { c with ext := ext }
  | columnConstraint c before slot after, ext =>
    { c with constraints := before ++ slot.fill RuleSlot.onColumn ext :: after }
  | table d, ext => SchemaElement.table { d with ext := ext }
  | tableConstraint d before slot after, ext =>
    SchemaElement.table
      { d with constraints := before ++ slot.fill RuleSlot.onTable ext :: after }
  | view d, ext => SchemaElement.view { d with ext := ext }
  | domain d, ext => SchemaElement.domain { d with ext := ext }
  | domainConstraint d before slot after, ext =>
    SchemaElement.domain { d with constraints := before ++ slot.fill Empty.elim ext :: after }
  | grant g, ext => SchemaElement.grant { g with ext := ext }
  | schema d, ext => Statement.createSchema { d with ext := ext }
  | revoke r, ext => Statement.revoke { r with ext := ext }
  | alterTable a, ext => Statement.alterTable { a with ext := ext }
  | addTableConstraint a slot, ext =>
    Statement.alterTable { a with change := .addConstraint (slot.fill RuleSlot.onTable ext) }
  | alterDomain a, ext => Statement.alterDomain { a with ext := ext }
  | addDomainConstraint a slot, ext =>
    Statement.alterDomain { a with change := .addConstraint (slot.fill Empty.elim ext) }
  | drop d, ext => Statement.drop { d with ext := ext }
  | insert i, ext => Statement.insert { i with ext := ext }
  | update u, ext => Statement.update { u with ext := ext }
  | delete d, ext => Statement.delete { d with ext := ext }

/-- The family of the slot. -/
def family {a : Category} : Slot a → String
  | query _ => "Query"
  | cte _ _ _ _ => "CommonTableExpr"
  | setOp _ _ _ _ => "SetOp"
  | sortKey _ _ _ _ => "OrderingExpr"
  | select _ => "Select"
  | fromClause _ _ => "JoinedTable"
  | join _ _ _ _ _ => "Join"
  | column _ => "ColumnDefinition"
  | columnConstraint _ _ slot _ => slot.family RuleSlot.family
  | table _ => "TableDefinition"
  | tableConstraint _ _ slot _ => slot.family RuleSlot.family
  | view _ => "ViewDefinition"
  | domain _ => "DomainDefinition"
  | domainConstraint _ _ slot _ => slot.family Empty.elim
  | grant _ => "GrantStatement"
  | schema _ => "SchemaDefinition"
  | revoke _ => "RevokeStatement"
  | alterTable _ => "AlterTable"
  | addTableConstraint _ slot => slot.family RuleSlot.family
  | alterDomain _ => "AlterDomain"
  | addDomainConstraint _ slot => slot.family Empty.elim
  | drop _ => "Drop"
  | insert _ => "Insert"
  | update _ => "Update"
  | delete _ => "Delete"

/-- The script of the part that has the slot, without a guard around it. -/
def script {a : Category} : Slot a → Option Extension → Script
  | query q, ext => Query.body { q with ext := ext }
  | cte _ _ item _, ext => Script.commas (Cte.scripts [{ item with ext := ext }])
  | setOp _ _ op _, ext => SetOp.script [{ op with ext := ext }]
  | sortKey _ _ key _, ext => Script.commas (OrderKey.scripts [{ key with ext := ext }])
  | select s, ext => Select.body { s with ext := ext }
  | fromClause _ clause, ext => FromClause.clause (some { clause with ext := ext })
  | join _ _ _ item _, ext => Join.script [{ item with ext := ext }]
  | column c, ext => Column.script { c with ext := ext }
  | columnConstraint _ _ slot _, ext => slot.script ColumnRule.script RuleSlot.script ext
  | table d, ext => TableDef.script { d with ext := ext }
  | tableConstraint _ _ slot _, ext => slot.script TableRule.script RuleSlot.script ext
  | view d, ext => ViewDef.script { d with ext := ext }
  | domain d, ext => DomainDef.script { d with ext := ext }
  | domainConstraint _ _ slot _, ext => slot.script DomainRule.script Empty.elim ext
  | grant g, ext => Grant.script { g with ext := ext }
  | schema d, ext => SchemaDef.script { d with ext := ext }
  | revoke r, ext => Revoke.script { r with ext := ext }
  | alterTable a, ext => AlterTable.script { a with ext := ext }
  | addTableConstraint _ slot, ext => slot.script TableRule.script RuleSlot.script ext
  | alterDomain a, ext => AlterDomain.script { a with ext := ext }
  | addDomainConstraint _ slot, ext => slot.script DomainRule.script Empty.elim ext
  | drop d, ext => Drop.script { d with ext := ext }
  | insert i, ext => Insert.script { i with ext := ext }
  | update u, ext => Update.script { u with ext := ext }
  | delete d, ext => Delete.script { d with ext := ext }

variable {a : Category} (slot : Slot a)

/-- What is in a slot stands right after the part that has the slot. -/
theorem script_eq (ext : Option Extension) :
    slot.script ext = slot.script none ++ Extension.slot slot.family ext := by
  cases slot with
  | query q => simp [script, family, Query.body, Extension.slot]
  | cte q before item after =>
      simp [script, family, Script.commas, Cte.scripts, Extension.slot]
  | setOp q before op after => simp [script, family, SetOp.script, Extension.slot]
  | sortKey q before key after =>
      simp [script, family, Script.commas, OrderKey.scripts, Extension.slot]
  | select s => simp [script, family, Select.body, Extension.slot]
  | fromClause s clause => simp [script, family, FromClause.clause, Extension.slot]
  | join s clause before item after => simp [script, family, Join.script, Extension.slot]
  | column c => simp [script, family, Column.script, Extension.slot]
  | columnConstraint c before slot after => exact slot.script_eq RuleSlot.script_eq ext
  | table d => simp [script, family, TableDef.script, Extension.slot]
  | tableConstraint d before slot after => exact slot.script_eq RuleSlot.script_eq ext
  | view d => simp [script, family, ViewDef.script, Extension.slot]
  | domain d => simp [script, family, DomainDef.script, Extension.slot]
  | domainConstraint d before slot after => exact slot.script_eq (fun inner => inner.elim) ext
  | grant g => simp [script, family, Grant.script, Extension.slot]
  | schema d => simp [script, family, SchemaDef.script, Extension.slot]
  | revoke r => simp [script, family, Revoke.script, Extension.slot]
  | alterTable a => simp [script, family, AlterTable.script, Extension.slot]
  | addTableConstraint a slot => exact slot.script_eq RuleSlot.script_eq ext
  | alterDomain a => simp [script, family, AlterDomain.script, Extension.slot]
  | addDomainConstraint a slot => exact slot.script_eq (fun inner => inner.elim) ext
  | drop d => simp [script, family, Drop.script, Extension.slot]
  | insert i => simp [script, family, Insert.script, Extension.slot]
  | update u => simp [script, family, Update.script, Extension.slot]
  | delete d => simp [script, family, Delete.script, Extension.slot]

theorem carries_query (slot : Slot .query) :
    Carries slot.script fun ext => (slot.fill ext).script := by
  cases slot with
  | query q => exact .within .here
  | cte q before item after =>
      have hctes : Carries (cte q before item after).script fun ext =>
          Script.commas (Cte.scripts (before ++ { item with ext := ext } :: after)) :=
        (Carries.here.commas (Cte.scripts before) (Cte.scripts after)).of_eq fun ext => by
          rw [Cte.scripts_append, Cte.scripts_cons]
          rfl
      cases before <;> exact .within (.append (.cons _ (.append hctes _)) _)
  | setOp q before op after =>
      have hops : Carries (setOp q before op after).script fun ext =>
          SetOp.script (before ++ { op with ext := ext } :: after) :=
        (Carries.here.beside (SetOp.script before) (SetOp.script after)).of_eq fun ext => by
          rw [SetOp.script_append before, ← List.singleton_append, SetOp.script_append _ after]
          rfl
      exact .within (.prepend _ (.cons _ (.append (.append (.append (.append hops _) _) _) _)))
  | sortKey q before key after =>
      have hkeys : Carries (sortKey q before key after).script fun ext =>
          Script.commas (OrderKey.scripts (before ++ { key with ext := ext } :: after)) :=
        (Carries.here.commas (OrderKey.scripts before) (OrderKey.scripts after)).of_eq fun ext => by
          rw [OrderKey.scripts_append, OrderKey.scripts_cons]
          rfl
      cases before <;> exact .within (.prepend _ (.cons _
        (.append (.append (.append (.prepend _ (.cons _ hkeys)) _) _) _)))

theorem carries_select (slot : Slot .select) :
    Carries slot.script fun ext => (slot.fill ext).script := by
  cases slot with
  | select s => exact .within .here
  | fromClause s clause => exact s.carries_clause .here
  | join s clause before item after =>
      have hjoin : Carries (join s clause before item after).script fun ext =>
          Join.script ({ item with ext := ext } :: after) :=
        (Carries.here.append (Join.script after)).of_eq fun ext => by
          rw [← List.singleton_append, Join.script_append _ after]
          rfl
      exact s.carries_clause (clause.carries_joins before after hjoin)

theorem carries_column (slot : Slot .column) :
    Carries slot.script fun ext => (slot.fill ext).script := by
  cases slot with
  | column c => exact .here
  | columnConstraint c before slot after =>
      have hclauses := Constraint.carries_among (slot.carries RuleSlot.carries_onColumn)
        before after
      change Carries _ fun ext => Column.script
        { c with constraints := before ++ slot.fill RuleSlot.onColumn ext :: after }
      simp only [Column.script]
      exact .cons _ (.cons _ (.append (.append (.prepend _ hclauses) _) _))

theorem carries_element (slot : Slot .element) :
    Carries slot.script fun ext => (slot.fill ext).script := by
  cases slot with
  | table d => exact .within .here
  | tableConstraint d before slot after =>
      have hconstraints :=
        d.carries_constraints (slot.carries RuleSlot.carries_onTable) before after
      refine .within ?_
      change Carries _ fun ext => TableDef.script
        { d with constraints := before ++ slot.fill RuleSlot.onTable ext :: after }
      simp only [TableDef.script]
      exact .prepend [_, _, _] (.prepend _ (.cons _ (.append hconstraints _)))
  | view d => exact .within .here
  | domain d => exact .within .here
  | domainConstraint d before slot after =>
      have hclauses := Constraint.carries_among
        (slot.carries_empty DomainRule.script) before after
      refine .within ?_
      change Carries _ fun ext => DomainDef.script
        { d with constraints := before ++ slot.fill Empty.elim ext :: after }
      simp only [DomainDef.script]
      exact .cons _ (.prepend _ (.cons _ (.append (.append (.prepend _ hclauses) _) _)))
  | grant g => exact .within .here

theorem carries_statement (slot : Slot .statement) :
    Carries slot.script fun ext => (slot.fill ext).script := by
  cases slot with
  | addTableConstraint a slot =>
      have hconstraint := slot.carries RuleSlot.carries_onTable
      refine .within ?_
      change Carries _ fun ext => AlterTable.script
        { a with change := .addConstraint (slot.fill RuleSlot.onTable ext) }
      simp only [AlterTable.script]
      exact .cons _ (.prepend _ (.cons _ (.append (.cons _ hconstraint) _)))
  | addDomainConstraint a slot =>
      have hconstraint := slot.carries_empty DomainRule.script
      refine .within ?_
      change Carries _ fun ext => AlterDomain.script
        { a with change := .addConstraint (slot.fill Empty.elim ext) }
      simp only [AlterDomain.script]
      exact .cons _ (.prepend _ (.cons _ (.append (.cons _ hconstraint) _)))
  | _ => exact .within .here

/-- A node has the script of the part whose slot is open. -/
theorem carries : Carries slot.script fun ext => (slot.fill ext).script := by
  cases a with
  | expr => cases slot
  | query => exact slot.carries_query
  | select => exact slot.carries_select
  | source => cases slot
  | column => exact slot.carries_column
  | element => exact slot.carries_element
  | statement => exact slot.carries_statement

end Slot

end TypedSql
