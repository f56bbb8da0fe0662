import TypedSql.Proofs.Equality

/-! Definitions, privileges, changes and statements that compare equal are the same, under the same
conditions as expressions and queries. Main statement: equal statements are rendered equally. -/

namespace TypedSql

open Site (Faithful)

theorem Expr.eq_of_beq_option {x y : Option Expr}
    (hf : Faithful (Expr.sitesOption x) (Expr.sitesOption y)) (h : (x == y) = true) : x = y := by
  refine hf.option (fun hf h => ?_) h
  simp only [Expr.sitesOption] at hf
  exact Expr.eq_of_same hf h

/-! ### Defaults and constraints -/

theorem DefaultValue.eq_of_same {a b : DefaultValue} (hf : Faithful a.sites b.sites)
    (h : (a == b) = true) : a = b := by
  cases a with
  | literal l =>
      cases b with
      | literal l' => rw [Literal.eq_of_same_site hf h]
      | _ => cases h
  | currentTime p =>
      cases b with
      | currentTime p' => rw [eq_of_beq (show (p == p') = true from h)]
      | _ => cases h
  | currentTimestamp p =>
      cases b with
      | currentTimestamp p' => rw [eq_of_beq (show (p == p') = true from h)]
      | _ => cases h
  | _ =>
      cases b <;> first
        | rfl
        | cases h

theorem Unique.eq_of_same {a b : Unique} (hf : Faithful a.sites b.sites) (h : (a == b) = true) :
    a = b := by
  obtain ⟨primaryKey, columns, ext⟩ := a
  obtain ⟨primaryKey', columns', ext'⟩ := b
  have hparts : (primaryKey == primaryKey' && (columns == columns' && ext == ext')) = true := h
  simp only [Bool.and_eq_true] at hparts
  simp only [Unique.sites] at hf
  obtain ⟨hkey, hcolumns, hext⟩ := hparts
  rw [eq_of_beq hkey, eq_of_beq hcolumns, Extension.eq_of_same_slot hf.split.2 hext]

theorem Reference.eq_of_same {a b : Reference} (hf : Faithful a.sites b.sites)
    (h : (a == b) = true) : a = b := by
  obtain ⟨referring, table, columns, matchType, onUpdate, onDelete, ext⟩ := a
  obtain ⟨referring', table', columns', matchType', onUpdate', onDelete', ext'⟩ := b
  have hparts : (referring == referring' && (table == table' && (columns == columns'
      && (matchType == matchType' && (onUpdate == onUpdate' && (onDelete == onDelete'
        && ext == ext')))))) = true := h
  simp only [Bool.and_eq_true] at hparts
  simp only [Reference.sites] at hf
  obtain ⟨hreferring, htable, hcolumns, hmatch, hupdate, hdelete, hext⟩ := hparts
  rw [eq_of_beq hreferring, eq_of_beq htable, eq_of_beq hcolumns, eq_of_beq hmatch,
    eq_of_beq hupdate, eq_of_beq hdelete, Extension.eq_of_same_slot hf.split.2 hext]

theorem ColumnRule.eq_of_same {a b : ColumnRule} (hf : Faithful a.sites b.sites)
    (h : (a == b) = true) : a = b := by
  cases a with
  | notNull =>
      cases b with
      | notNull => rfl
      | _ => cases h
  | unique u =>
      cases b with
      | unique u' => rw [Unique.eq_of_same hf h]
      | _ => cases h
  | references r =>
      cases b with
      | references r' => rw [Reference.eq_of_same hf h]
      | _ => cases h
  | check condition =>
      cases b with
      | check condition' => rw [Expr.eq_of_same hf h]
      | _ => cases h
  | custom node =>
      cases b with
      | custom node' => rw [Extension.eq_of_same hf h]
      | _ => cases h

theorem TableRule.eq_of_same {a b : TableRule} (hf : Faithful a.sites b.sites)
    (h : (a == b) = true) : a = b := by
  cases a with
  | unique u =>
      cases b with
      | unique u' => rw [Unique.eq_of_same hf h]
      | _ => cases h
  | references r =>
      cases b with
      | references r' => rw [Reference.eq_of_same hf h]
      | _ => cases h
  | check condition =>
      cases b with
      | check condition' => rw [Expr.eq_of_same hf h]
      | _ => cases h
  | custom node =>
      cases b with
      | custom node' => rw [Extension.eq_of_same hf h]
      | _ => cases h

theorem DomainRule.eq_of_same {a b : DomainRule} (hf : Faithful a.sites b.sites)
    (h : (a == b) = true) : a = b := by
  obtain ⟨condition⟩ := a
  obtain ⟨condition'⟩ := b
  have hcondition : condition = condition' := Expr.eq_of_same hf h
  rw [hcondition]

theorem CheckTime.eq_of_same {a b : CheckTime}
    (hf : Faithful (Site.slot "ConstraintCheckTime" a.ext) (Site.slot "ConstraintCheckTime" b.ext))
    (h : (a == b) = true) : a = b := by
  obtain ⟨deferred, deferrable, ext⟩ := a
  obtain ⟨deferred', deferrable', ext'⟩ := b
  have hparts : (deferred == deferred' && (deferrable == deferrable' && ext == ext')) = true := h
  simp only [Bool.and_eq_true] at hparts
  have hext : ext = ext' := Extension.eq_of_same_slot hf hparts.2.2
  rw [eq_of_beq hparts.1, eq_of_beq hparts.2.1, hext]

/-- Constraints that compare equal are the same, if their rules are. -/
theorem Constraint.eq_of_same {Rule : Type} [BEq Rule] {sites : Rule → List Site}
    (hrule : ∀ {r r' : Rule}, Faithful (sites r) (sites r') → (r == r') = true → r = r')
    {a b : Constraint Rule} (hf : Faithful (a.sitesWith sites) (b.sitesWith sites))
    (h : (a == b) = true) : a = b := by
  obtain ⟨name, rule, checkTime, ext⟩ := a
  obtain ⟨name', rule', checkTime', ext'⟩ := b
  have hparts : (name == name' && (rule == rule' && (checkTime == checkTime' && ext == ext')))
      = true := h
  simp only [Bool.and_eq_true] at hparts
  simp only [Constraint.sitesWith] at hf
  obtain ⟨hname, hrules, htime, hext⟩ := hparts
  obtain ⟨hf, hfext⟩ := hf.split
  obtain ⟨hf, hftime⟩ := hf.split
  rw [eq_of_beq hname, hrule hf.split.2 hrules, hftime.option CheckTime.eq_of_same htime,
    Extension.eq_of_same_slot hfext hext]

theorem Constraint.eq_of_same_list {Rule : Type} [BEq Rule] {sites : Rule → List Site}
    (hrule : ∀ {r r' : Rule}, Faithful (sites r) (sites r') → (r == r') = true → r = r')
    {as bs : List (Constraint Rule)}
    (hf : Faithful (Constraint.sitesList sites as) (Constraint.sitesList sites bs))
    (h : (as == bs) = true) : as = bs :=
  hf.list (Constraint.eq_of_same hrule) h

/-! ### Definitions -/

theorem ColumnType.eq_of_same {a b : ColumnType} (hf : Faithful a.sites b.sites)
    (h : (a == b) = true) : a = b := by
  cases a with
  | type t =>
      cases b with
      | type t' => rw [DataType.eq_of_same hf h]
      | domain _ => cases h
  | domain name =>
      cases b with
      | type _ => cases h
      | domain name' => rw [eq_of_beq (show (name == name') = true from h)]

theorem Column.eq_of_same {a b : Column} (hf : Faithful a.sites b.sites) (h : (a == b) = true) :
    a = b := by
  obtain ⟨name, type, default, constraints, collation, ext⟩ := a
  obtain ⟨name', type', default', constraints', collation', ext'⟩ := b
  have hparts : (name == name' && (type == type' && (default == default'
      && (constraints == constraints' && (collation == collation' && ext == ext'))))) = true := h
  simp only [Bool.and_eq_true] at hparts
  simp only [Column.sites] at hf
  obtain ⟨hname, htype, hdefault, hconstraints, hcollation, hext⟩ := hparts
  obtain ⟨hf, hfext⟩ := hf.split
  obtain ⟨hf, -⟩ := hf.split
  obtain ⟨hf, hfconstraints⟩ := hf.split
  obtain ⟨hftype, hfdefault⟩ := hf.split
  rw [eq_of_beq hname, ColumnType.eq_of_same hftype.tail htype,
    hfdefault.option DefaultValue.eq_of_same hdefault,
    Constraint.eq_of_same_list ColumnRule.eq_of_same hfconstraints hconstraints,
    eq_of_beq hcollation, Extension.eq_of_same_slot hfext hext]

theorem TableDef.eq_of_same {a b : TableDef} (hf : Faithful a.sites b.sites)
    (h : (a == b) = true) : a = b := by
  obtain ⟨name, mode, columns, constraints, onCommit, ext⟩ := a
  obtain ⟨name', mode', columns', constraints', onCommit', ext'⟩ := b
  have hparts : (name == name' && (mode == mode' && (columns == columns'
      && (constraints == constraints' && (onCommit == onCommit' && ext == ext'))))) = true := h
  simp only [Bool.and_eq_true] at hparts
  simp only [TableDef.sites] at hf
  obtain ⟨hname, hmode, hcolumns, hconstraints, hcommit, hext⟩ := hparts
  obtain ⟨hf, hfext⟩ := hf.split
  obtain ⟨hf, hfconstraints⟩ := hf.split
  rw [eq_of_beq hname, eq_of_beq hmode, hf.split.2.list Column.eq_of_same hcolumns,
    Constraint.eq_of_same_list TableRule.eq_of_same hfconstraints hconstraints,
    eq_of_beq hcommit, Extension.eq_of_same_slot hfext hext]

theorem ViewDef.eq_of_same {a b : ViewDef} (hf : Faithful a.sites b.sites) (h : (a == b) = true) :
    a = b := by
  obtain ⟨name, columns, query, checkOption, ext⟩ := a
  obtain ⟨name', columns', query', checkOption', ext'⟩ := b
  have hparts : (name == name' && (columns == columns' && (query == query'
      && (checkOption == checkOption' && ext == ext')))) = true := h
  simp only [Bool.and_eq_true] at hparts
  simp only [ViewDef.sites] at hf
  obtain ⟨hname, hcolumns, hquery, hcheck, hext⟩ := hparts
  obtain ⟨hf, hfext⟩ := hf.split
  rw [eq_of_beq hname, eq_of_beq hcolumns, Query.eq_of_same hf.split.2 hquery, eq_of_beq hcheck,
    Extension.eq_of_same_slot hfext hext]

theorem DomainDef.eq_of_same {a b : DomainDef} (hf : Faithful a.sites b.sites)
    (h : (a == b) = true) : a = b := by
  obtain ⟨name, type, default, constraints, collation, ext⟩ := a
  obtain ⟨name', type', default', constraints', collation', ext'⟩ := b
  have hparts : (name == name' && (type == type' && (default == default'
      && (constraints == constraints' && (collation == collation' && ext == ext'))))) = true := h
  simp only [Bool.and_eq_true] at hparts
  simp only [DomainDef.sites] at hf
  obtain ⟨hname, htype, hdefault, hconstraints, hcollation, hext⟩ := hparts
  obtain ⟨hf, hfext⟩ := hf.split
  obtain ⟨hf, -⟩ := hf.split
  obtain ⟨hf, hfconstraints⟩ := hf.split
  obtain ⟨hf, hfdefault⟩ := hf.split
  rw [eq_of_beq hname, DataType.eq_of_same hf.split.2 htype,
    hfdefault.option DefaultValue.eq_of_same hdefault,
    Constraint.eq_of_same_list DomainRule.eq_of_same hfconstraints hconstraints,
    eq_of_beq hcollation, Extension.eq_of_same_slot hfext hext]

/-! ### Privileges and schemas -/

theorem Grant.eq_of_same {a b : Grant} (hf : Faithful a.sites b.sites) (h : (a == b) = true) :
    a = b := by
  obtain ⟨privileges, object, objectKind, grantees, grantOption, ext⟩ := a
  obtain ⟨privileges', object', objectKind', grantees', grantOption', ext'⟩ := b
  have hparts : (privileges == privileges' && (object == object' && (objectKind == objectKind'
      && (grantees == grantees' && (grantOption == grantOption' && ext == ext'))))) = true := h
  simp only [Bool.and_eq_true] at hparts
  simp only [Grant.sites] at hf
  obtain ⟨hprivileges, hobject, hkind, hgrantees, hoption, hext⟩ := hparts
  rw [eq_of_beq hprivileges, eq_of_beq hobject, eq_of_beq hkind, eq_of_beq hgrantees,
    eq_of_beq hoption, Extension.eq_of_same_slot hf.split.2 hext]

theorem Revoke.eq_of_same {a b : Revoke} (hf : Faithful a.sites b.sites) (h : (a == b) = true) :
    a = b := by
  obtain ⟨privileges, object, objectKind, grantees, grantOption, behavior, ext⟩ := a
  obtain ⟨privileges', object', objectKind', grantees', grantOption', behavior', ext'⟩ := b
  have hparts : (privileges == privileges' && (object == object' && (objectKind == objectKind'
      && (grantees == grantees' && (grantOption == grantOption' && (behavior == behavior'
        && ext == ext')))))) = true := h
  simp only [Bool.and_eq_true] at hparts
  simp only [Revoke.sites] at hf
  obtain ⟨hprivileges, hobject, hkind, hgrantees, hoption, hbehavior, hext⟩ := hparts
  rw [eq_of_beq hprivileges, eq_of_beq hobject, eq_of_beq hkind, eq_of_beq hgrantees,
    eq_of_beq hoption, eq_of_beq hbehavior, Extension.eq_of_same_slot hf.split.2 hext]

theorem SchemaElement.eq_of_same {a b : SchemaElement} (hf : Faithful a.inside b.inside)
    (h : (a == b) = true) : a = b := by
  cases a with
  | table d =>
      cases b with
      | table d' => rw [TableDef.eq_of_same hf h]
      | _ => cases h
  | view d =>
      cases b with
      | view d' => rw [ViewDef.eq_of_same hf h]
      | _ => cases h
  | domain d =>
      cases b with
      | domain d' => rw [DomainDef.eq_of_same hf h]
      | _ => cases h
  | grant g =>
      cases b with
      | grant g' => rw [Grant.eq_of_same hf h]
      | _ => cases h

theorem SchemaDef.eq_of_same {a b : SchemaDef} (hf : Faithful a.sites b.sites)
    (h : (a == b) = true) : a = b := by
  obtain ⟨name, authorization, characterSet, elements, ext⟩ := a
  obtain ⟨name', authorization', characterSet', elements', ext'⟩ := b
  have hparts : (name == name' && (authorization == authorization'
      && (characterSet == characterSet' && (elements == elements' && ext == ext')))) = true := h
  simp only [Bool.and_eq_true] at hparts
  simp only [SchemaDef.sites] at hf
  obtain ⟨hname, howner, hset, helements, hext⟩ := hparts
  obtain ⟨hf, hfext⟩ := hf.split
  have helements := hf.split.2.list (fun hf h => SchemaElement.eq_of_same hf.inside h) helements
  rw [eq_of_beq hname, eq_of_beq howner, eq_of_beq hset, helements,
    Extension.eq_of_same_slot hfext hext]

/-! ### Changes -/

theorem TableChange.eq_of_same {a b : TableChange} (hf : Faithful a.sites b.sites)
    (h : (a == b) = true) : a = b := by
  cases a with
  | addColumn column =>
      cases b with
      | addColumn column' => rw [Column.eq_of_same hf h]
      | _ => cases h
  | alterColumn column change =>
      cases b with
      | alterColumn column' change' =>
          have hparts : (column == column' && change == change') = true := h
          rw [Bool.and_eq_true] at hparts
          rw [eq_of_beq hparts.1]
          cases change with
          | set value =>
              cases change' with
              | set value' => rw [DefaultValue.eq_of_same hf.tail hparts.2]
              | drop => cases hparts.2
          | drop =>
              cases change' with
              | set value' => cases hparts.2
              | drop => rfl
      | _ => cases h
  | dropColumn column behavior =>
      cases b with
      | dropColumn column' behavior' =>
          have hparts : (column == column' && behavior == behavior') = true := h
          rw [Bool.and_eq_true] at hparts
          rw [eq_of_beq hparts.1, eq_of_beq hparts.2]
      | _ => cases h
  | addConstraint constraint =>
      cases b with
      | addConstraint constraint' => rw [Constraint.eq_of_same TableRule.eq_of_same hf h]
      | _ => cases h
  | dropConstraint name behavior =>
      cases b with
      | dropConstraint name' behavior' =>
          have hparts : (name == name' && behavior == behavior') = true := h
          rw [Bool.and_eq_true] at hparts
          rw [eq_of_beq hparts.1, eq_of_beq hparts.2]
      | _ => cases h

theorem AlterTable.eq_of_same {a b : AlterTable} (hf : Faithful a.sites b.sites)
    (h : (a == b) = true) : a = b := by
  obtain ⟨name, change, ext⟩ := a
  obtain ⟨name', change', ext'⟩ := b
  have hparts : (name == name' && (change == change' && ext == ext')) = true := h
  simp only [Bool.and_eq_true] at hparts
  simp only [AlterTable.sites] at hf
  obtain ⟨hf, hfext⟩ := hf.split
  rw [eq_of_beq hparts.1, TableChange.eq_of_same hf.split.2 hparts.2.1,
    Extension.eq_of_same_slot hfext hparts.2.2]

theorem DomainChange.eq_of_same {a b : DomainChange} (hf : Faithful a.sites b.sites)
    (h : (a == b) = true) : a = b := by
  cases a with
  | setDefault value =>
      cases b with
      | setDefault value' => rw [DefaultValue.eq_of_same hf h]
      | _ => cases h
  | dropDefault =>
      cases b with
      | dropDefault => rfl
      | _ => cases h
  | addConstraint constraint =>
      cases b with
      | addConstraint constraint' => rw [Constraint.eq_of_same DomainRule.eq_of_same hf h]
      | _ => cases h
  | dropConstraint name =>
      cases b with
      | dropConstraint name' => rw [eq_of_beq (show (name == name') = true from h)]
      | _ => cases h

theorem AlterDomain.eq_of_same {a b : AlterDomain} (hf : Faithful a.sites b.sites)
    (h : (a == b) = true) : a = b := by
  obtain ⟨name, change, ext⟩ := a
  obtain ⟨name', change', ext'⟩ := b
  have hparts : (name == name' && (change == change' && ext == ext')) = true := h
  simp only [Bool.and_eq_true] at hparts
  simp only [AlterDomain.sites] at hf
  obtain ⟨hf, hfext⟩ := hf.split
  rw [eq_of_beq hparts.1, DomainChange.eq_of_same hf.split.2 hparts.2.1,
    Extension.eq_of_same_slot hfext hparts.2.2]

theorem Drop.eq_of_same {a b : Drop} (hf : Faithful a.sites b.sites) (h : (a == b) = true) :
    a = b := by
  obtain ⟨kind, name, behavior, ext⟩ := a
  obtain ⟨kind', name', behavior', ext'⟩ := b
  have hparts : (kind == kind' && (name == name' && (behavior == behavior' && ext == ext')))
      = true := h
  simp only [Bool.and_eq_true] at hparts
  simp only [Drop.sites] at hf
  obtain ⟨hkind, hname, hbehavior, hext⟩ := hparts
  rw [eq_of_beq hkind, eq_of_beq hname, eq_of_beq hbehavior,
    Extension.eq_of_same_slot hf.split.2 hext]

/-! ### Statements -/

theorem Cell.eq_of_same {a b : Cell} (hf : Faithful a.sites b.sites) (h : (a == b) = true) :
    a = b := by
  cases a with
  | value e =>
      cases b with
      | value e' => rw [Expr.eq_of_same hf h]
      | default => cases h
  | default =>
      cases b with
      | value e' => cases h
      | default => rfl

theorem InsertRows.eq_of_same {a b : InsertRows} (hf : Faithful a.sites b.sites)
    (h : (a == b) = true) : a = b := by
  cases a with
  | values rows =>
      cases b with
      | values rows' =>
          have hrows : (rows == rows') = true := h
          rw [Faithful.list (fun hf h => hf.list Cell.eq_of_same h) hf hrows]
      | _ => cases h
  | query q =>
      cases b with
      | query q' => rw [Query.eq_of_same hf h]
      | _ => cases h
  | defaultValues =>
      cases b with
      | defaultValues => rfl
      | _ => cases h

theorem Insert.eq_of_same {a b : Insert} (hf : Faithful a.sites b.sites) (h : (a == b) = true) :
    a = b := by
  obtain ⟨table, columns, rows, ext⟩ := a
  obtain ⟨table', columns', rows', ext'⟩ := b
  have hparts : (table == table' && (columns == columns' && (rows == rows' && ext == ext')))
      = true := h
  simp only [Bool.and_eq_true] at hparts
  simp only [Insert.sites] at hf
  obtain ⟨htable, hcolumns, hrows, hext⟩ := hparts
  obtain ⟨hf, hfext⟩ := hf.split
  rw [eq_of_beq htable, eq_of_beq hcolumns, InsertRows.eq_of_same hf.split.2 hrows,
    Extension.eq_of_same_slot hfext hext]

theorem Assignment.eq_of_same {a b : Assignment} (hf : Faithful a.sites b.sites)
    (h : (a == b) = true) : a = b := by
  obtain ⟨column, value⟩ := a
  obtain ⟨column', value'⟩ := b
  have hparts : (column == column' && value == value') = true := h
  rw [Bool.and_eq_true] at hparts
  simp only [Assignment.sites] at hf
  rw [eq_of_beq hparts.1, Cell.eq_of_same hf.tail hparts.2]

theorem Update.eq_of_same {a b : Update} (hf : Faithful a.sites b.sites) (h : (a == b) = true) :
    a = b := by
  obtain ⟨table, assignments, filter, ext⟩ := a
  obtain ⟨table', assignments', filter', ext'⟩ := b
  have hparts : (table == table' && (assignments == assignments' && (filter == filter'
      && ext == ext'))) = true := h
  simp only [Bool.and_eq_true] at hparts
  simp only [Update.sites] at hf
  obtain ⟨htable, hassignments, hfilter, hext⟩ := hparts
  obtain ⟨hf, hfext⟩ := hf.split
  obtain ⟨hf, hffilter⟩ := hf.split
  rw [eq_of_beq htable, hf.split.2.list Assignment.eq_of_same hassignments,
    Expr.eq_of_beq_option hffilter hfilter, Extension.eq_of_same_slot hfext hext]

theorem Delete.eq_of_same {a b : Delete} (hf : Faithful a.sites b.sites) (h : (a == b) = true) :
    a = b := by
  obtain ⟨table, filter, ext⟩ := a
  obtain ⟨table', filter', ext'⟩ := b
  have hparts : (table == table' && (filter == filter' && ext == ext')) = true := h
  simp only [Bool.and_eq_true] at hparts
  simp only [Delete.sites] at hf
  obtain ⟨hf, hfext⟩ := hf.split
  rw [eq_of_beq hparts.1, Expr.eq_of_beq_option hf.split.2 hparts.2.1,
    Extension.eq_of_same_slot hfext hparts.2.2]

theorem Statement.eq_of_same {a b : Statement} (hf : Faithful a.sites b.sites)
    (h : (a == b) = true) : a = b := by
  have hf := hf.inside
  cases a with
  | query q =>
      cases b with
      | query q' => rw [Query.eq_of_same hf h]
      | _ => cases h
  | createSchema d =>
      cases b with
      | createSchema d' => rw [SchemaDef.eq_of_same hf h]
      | _ => cases h
  | createTable d =>
      cases b with
      | createTable d' => rw [TableDef.eq_of_same hf h]
      | _ => cases h
  | createView d =>
      cases b with
      | createView d' => rw [ViewDef.eq_of_same hf h]
      | _ => cases h
  | createDomain d =>
      cases b with
      | createDomain d' => rw [DomainDef.eq_of_same hf h]
      | _ => cases h
  | grant g =>
      cases b with
      | grant g' => rw [Grant.eq_of_same hf h]
      | _ => cases h
  | revoke r =>
      cases b with
      | revoke r' => rw [Revoke.eq_of_same hf h]
      | _ => cases h
  | alterTable a =>
      cases b with
      | alterTable a' => rw [AlterTable.eq_of_same hf h]
      | _ => cases h
  | alterDomain a =>
      cases b with
      | alterDomain a' => rw [AlterDomain.eq_of_same hf h]
      | _ => cases h
  | drop d =>
      cases b with
      | drop d' => rw [Drop.eq_of_same hf h]
      | _ => cases h
  | insert i =>
      cases b with
      | insert i' => rw [Insert.eq_of_same hf h]
      | _ => cases h
  | update u =>
      cases b with
      | update u' => rw [Update.eq_of_same hf h]
      | _ => cases h
  | delete d =>
      cases b with
      | delete d' => rw [Delete.eq_of_same hf h]
      | _ => cases h

/-- Two statements that compare equal are rendered equally: with the same text and values or the same
error, and with the same events. The first has no float, because both zeros are equal and are written
differently, and a node of the first with the identity of a node of the second carries its payload. -/
theorem Statement.report_eq_of_beq (s s' : Statement)
    (hfloat : ∀ x, .literal (.float x) ∉ s.sites)
    (hidentity : ∀ f g n m, .node f n ∈ s.sites → .node g m ∈ s'.sites →
      n.identity = m.identity → n.payload = m.payload)
    (h : (s == s') = true) (r : Renderer) : r.statement s = r.statement s' := by
  have hf : Faithful s.sites s'.sites := ⟨hfloat, fun hn hm => hidentity _ _ _ _ hn hm⟩
  rw [Statement.eq_of_same hf h]

/-- Two statements with copies of one node, which a handler writes, and the same constraints. -/
theorem Statement.report_eq_of_beq_shared :
    let n : Extension := ⟨"inherits", 7, .text "INHERITS (\"base\")"⟩
    let d : TableDef :=
      { name := .simple "t",
        columns := [{ name := "a", type := .type .integer,
                      default := some (.literal (.string "x")),
                      constraints := [{ rule := .check (.isNull (.ident "a") true) }] }],
        ext := some n }
    let s := Statement.createTable d
    let s' := Statement.createTable { d with mode := .persistent, ext := some n }
    let r : Renderer :=
      { handlers := .ofList [("inherits", fun n => [.text (n.text?.getD "")])] }
    (∀ x, .literal (.float x) ∉ s.sites) ∧
      (∀ f g n m, .node f n ∈ s.sites → .node g m ∈ s'.sites →
        n.identity = m.identity → n.payload = m.payload) ∧
      (s == s') = true ∧ r.statement s = r.statement s' ∧
      (r.statement s).result = .ok
        ⟨"CREATE TABLE \"t\" (\"a\" INTEGER DEFAULT 'x' CHECK (\"a\" IS NOT NULL)) INHERITS (\"base\")", []⟩ := by
  intro n d s s' r
  have hsites : s.sites = [.guarded 1, .ident "t", .ident "a", .literal (.string "x"), .guarded 2,
      .guarded 3, .ident "a", .node "TableDefinition" n] := by
    cbv
  have hfloat (x : Double) : .literal (.float x) ∉ s.sites := by
    rw [hsites]
    simp
  have hnode (f : String) (m : Extension) (h : .node f m ∈ s.sites) : m = n := by
    rw [hsites] at h
    simp only [List.mem_cons, reduceCtorEq, false_or, Site.node.injEq, List.not_mem_nil,
      or_false] at h
    exact h.2
  have hidentity (f g : String) (m m' : Extension) (hm : .node f m ∈ s.sites)
      (hm' : .node g m' ∈ s'.sites) (_ : m.identity = m'.identity) : m.payload = m'.payload := by
    rw [hnode f m hm, hnode g m' hm']
  have hbeq : (s == s') = true := by cbv
  have hreport := Statement.report_eq_of_beq s s' hfloat hidentity hbeq r
  refine ⟨hfloat, hidentity, hbeq, hreport, ?_⟩
  clear hsites hfloat hnode hidentity hbeq hreport
  subst r s' s d n
  rfl

/-- The two zeros are equal and are written differently. -/
example : (Literal.float ⟨0⟩ == .float ⟨0x8000000000000000⟩) = true ∧
    (Literal.float ⟨0⟩).sql .standard = "0" ∧
      (Literal.float ⟨0x8000000000000000⟩).sql .standard = "-0" := by
  decide

end TypedSql
