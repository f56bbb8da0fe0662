import TypedSql.Proofs.Layout.Query

/-! The layouts of definitions, privileges, changes and statements. -/

namespace TypedSql

open Layout

/-! ### Defaults and constraints -/

theorem DefaultValue.layout (d : DefaultValue) : Layout d.sites d.script := by
  rw [DefaultValue.script]
  cases d with
  | literal l => exact .text (by decide) (.literal trivial .nil)
  | currentTime p => exact .text (by decide) (.text (by decide) (precision p).layout)
  | currentTimestamp p => exact .text (by decide) (.text (by decide) (precision p).layout)
  | _ => exact .text (by decide) (.text (by decide) .nil)

theorem DefaultValue.layoutOption (d : Option DefaultValue) :
    Tail (DefaultValue.sitesOption d) (DefaultValue.clause d) := by
  cases d with
  | none => exact .nil
  | some d => exact .text (by decide) d.layout

theorem Unique.layout (u : Unique) : Layout u.sites u.script := by
  have hcolumns := (Layout.columns u.columns).append
    (Extension.layout_slot "UniqueConstraint" u.ext)
  rw [Unique.sites, Unique.script]
  cases u.primaryKey with
  | false => exact .text (by decide) hcolumns.layout
  | true => exact .text (by decide) hcolumns.layout

theorem ReferentialAction.layoutOption (lead : String) (action : Option ReferentialAction)
    (hlead : Text.Lead lead) : Tail [] (ReferentialAction.clause lead action) := by
  cases action with
  | none => exact .nil
  | some a => exact .text hlead (.text (by cases a <;> decide) .nil)

/-- The regular match type is an empty text, behind which the actions still lead. -/
theorem MatchType.layout (m : MatchType) {b : List Site} {t : Script} (h : Tail b t) :
    Tail b (.text m.sql :: t) := by
  cases m with
  | regular => exact ⟨.text (by decide) h.layout, by decide, fun _ => h.leads⟩
  | full => exact .text (by decide) h.layout
  | partialMatch => exact .text (by decide) h.layout

theorem Reference.layout (r : Reference) : Layout r.sites r.script := by
  have hactions := ((ReferentialAction.layoutOption " ON UPDATE " r.onUpdate (by decide)).append
    (ReferentialAction.layoutOption " ON DELETE " r.onDelete (by decide))).append
      (Extension.layout_slot "ReferenceConstraint" r.ext)
  have htarget := r.table.layout.append
    ((Layout.columns r.columns).append (r.matchType.layout hactions))
  rw [Reference.sites, Reference.script]
  simp only [List.append_assoc, List.nil_append] at htarget ⊢
  cases hr : r.referring with
  | nil => exact .text (by decide) htarget
  | cons i is =>
      have hkey := (idents (i :: is)).layout.append
        (.text (w := " ") (by decide) (.text (s := "REFERENCES ") (by decide) htarget))
      simp only [List.isEmpty_cons, Bool.false_eq_true, if_false, List.append_assoc,
        List.cons_append, List.nil_append]
      exact .text (by decide) hkey

theorem Expr.layout_check (e : Expr) : Layout e.sites e.check :=
  .text (by decide) (e.layout.ends (by decide))

theorem ColumnRule.layout (r : ColumnRule) : Layout r.sites r.script := by
  cases r with
  | notNull => exact .text (by decide) .nil
  | unique u => exact u.layout
  | references r => exact r.layout
  | check condition => exact condition.layout_check
  | custom node => exact .node .nil

theorem TableRule.layout (r : TableRule) : Layout r.sites r.script := by
  cases r with
  | unique u => exact u.layout
  | references r => exact r.layout
  | check condition => exact condition.layout_check
  | custom node => exact .node .nil

theorem DomainRule.layout (r : DomainRule) : Layout r.sites r.script :=
  r.condition.layout_check

theorem CheckTime.layoutOption (t : Option CheckTime) :
    Tail (CheckTime.sitesOption t) (CheckTime.clause t) := by
  cases t with
  | none => exact .nil
  | some t =>
      have hslot := (Extension.layout_slot "ConstraintCheckTime" t.ext).layout
      have hdeferred : Text.Lead
          (if t.deferred then " INITIALLY DEFERRED" else " INITIALLY IMMEDIATE") := by
        cases t.deferred <;> decide
      have hdeferrable : Text.Plain (if t.deferrable then " DEFERRABLE" else " NOT DEFERRABLE") := by
        cases t.deferrable <;> decide
      exact .text hdeferred (.text hdeferrable hslot)

theorem Constraint.layoutWith {Rule : Type} {sites : Rule → List Site} {script : Rule → Script}
    (h : ∀ r, Layout (sites r) (script r)) (c : Constraint Rule) :
    Layout (c.sitesWith sites) (c.scriptWith script) := by
  have hrule := ((h c.rule).append (CheckTime.layoutOption c.checkTime)).append
    (Extension.layout_slot "ConstraintDefinition" c.ext)
  rw [Constraint.sitesWith, Constraint.scriptWith]
  cases c.name with
  | none => exact hrule
  | some name =>
      simp only [List.append_assoc] at hrule ⊢
      have hspace : Tail _ (.text " " :: _) := .text (by decide) hrule
      exact .text (by decide) (.ident hspace.leads hspace.layout)

theorem Constraint.layoutList {Rule : Type} {sites : Rule → List Site} {script : Rule → Script}
    (h : ∀ r, Layout (sites r) (script r)) (cs : List (Constraint Rule)) :
    Tail (Constraint.sitesList sites cs) (Constraint.clauses script cs) :=
  Tail.flatMap (fun c => .text (by decide) (c.layoutWith h)) cs

/-! ### Definitions -/

theorem ColumnType.layout (t : ColumnType) : Layout t.sites t.script := by
  cases t with
  | type t => exact t.layout
  | domain name => exact name.layout

theorem Column.layout (c : Column) : Layout c.sites c.script := by
  have hparts := (((c.type.layout.append (DefaultValue.layoutOption c.default)).append
    (Constraint.layoutList ColumnRule.layout c.constraints)).append
      (Name.layoutOption " COLLATE " c.collation (by decide))).append
        (Extension.layout_slot "ColumnDefinition" c.ext)
  have hspace : Tail _ (.text " " :: _) := .text (by decide) hparts
  rw [Column.sites, Column.script]
  simp only [List.cons_append] at hspace ⊢
  exact .ident hspace.leads hspace.layout

theorem TableDef.layout (d : TableDef) : Layout d.sites d.script := by
  have hmode : Text.Plain d.mode.sql := by cases d.mode <;> decide
  have hcommit : Tail []
      (d.onCommit.elim [] fun action => [.text " ON COMMIT ", .text action.sql]) := by
    cases d.onCommit with
    | none => exact .nil
    | some action => exact .text (by decide) (.text (by cases action <;> decide) .nil)
  have hend : Tail _ (.text ")" :: _) :=
    .text (by decide) (hcommit.append (Extension.layout_slot "TableDefinition" d.ext)).layout
  have hparts := (intercalate_append (w := ", ") Column.layout d.columns
    (commas_map (fun c => c.layoutWith TableRule.layout) d.constraints) (by decide)).append hend
  have hname := d.name.layout.append (.text (w := " (") (by decide) hparts)
  rw [TableDef.sites, TableDef.script, Constraint.sitesList]
  simp only [List.append_assoc, List.nil_append] at hname ⊢
  cases haction : d.onCommit <;> rw [haction] at hname <;>
    exact .text (by decide) (.text hmode (.text (by decide) hname))

theorem ViewDef.layout (d : ViewDef) : Layout d.sites d.script := by
  have hcheck : Tail [] (d.checkOption.elim [] fun option =>
      [.text " WITH ", .text option.sql, .text " CHECK OPTION"]) := by
    cases d.checkOption with
    | none => exact .nil
    | some option =>
        exact .text (by decide) (.text (by cases option <;> decide) (.text (by decide) .nil))
  have hquery : Tail _ (.text " AS " :: .guarded d.query.body :: _) :=
    .text (by decide) (d.query.layout.cons
      (hcheck.append (Extension.layout_slot "ViewDefinition" d.ext)))
  have hname := d.name.layout.append ((Layout.columns d.columns).append hquery)
  rw [ViewDef.sites, ViewDef.script]
  simp only [List.append_assoc, List.nil_append] at hname ⊢
  cases hoption : d.checkOption <;> rw [hoption] at hname <;> exact .text (by decide) hname

theorem DomainDef.layout (d : DomainDef) : Layout d.sites d.script := by
  have hparts := (((d.type.layout.append (DefaultValue.layoutOption d.default)).append
    (Constraint.layoutList DomainRule.layout d.constraints)).append
      (Name.layoutOption " COLLATE " d.collation (by decide))).append
        (Extension.layout_slot "DomainDefinition" d.ext)
  have hname := d.name.layout.append (.text (w := " AS ") (by decide) hparts)
  rw [DomainDef.sites, DomainDef.script]
  simp only [List.append_assoc] at hname ⊢
  exact .text (by decide) hname

/-! ### Privileges -/

theorem Privilege.layout (p : Privilege) : Layout p.sites p.script := by
  have hkeyword : Text.Plain p.keyword := by
    cases p with
    | insert _ => exact (by decide : Text.Plain "INSERT")
    | update _ => exact (by decide : Text.Plain "UPDATE")
    | references _ => exact (by decide : Text.Plain "REFERENCES")
    | _ => decide
  rw [Privilege.sites, Privilege.script]
  cases p.columns? with
  | none => exact .text hkeyword .nil
  | some columns => exact .text hkeyword (.text (by decide) (idents columns).layout)

theorem Privilege.layoutList (privileges : Option (List Privilege)) :
    Layout (Privilege.sitesList privileges) (Privilege.list privileges) := by
  cases privileges with
  | none => exact .text (by decide) .nil
  | some privileges => exact commas_map Privilege.layout privileges

theorem Script.layout_grantees (grantees : Option (List Ident)) :
    Layout ((grantees.getD []).map Site.ident) (Script.grantees grantees) := by
  cases grantees with
  | none => exact .text (by decide) .nil
  | some names => exact ident_map names (by decide)

theorem ObjectKind.layout_target (kind : ObjectKind) (object : Name) :
    Tail object.sites (kind.target object) := by
  have hkind : Text.Plain kind.sql := by cases kind <;> decide
  exact .text (by decide) (.text hkind (.text (by decide) object.layout))

theorem Grant.layout (g : Grant) : Layout g.sites g.script := by
  have hoption : Tail [] (if g.grantOption then [.text " WITH GRANT OPTION"] else []) := by
    cases g.grantOption with
    | false => exact .nil
    | true => exact .text (by decide) .nil
  have hgrantees := ((Script.layout_grantees g.grantees).append hoption).append
    (Extension.layout_slot "GrantStatement" g.ext)
  have hobject := ((Privilege.layoutList g.privileges).append
    (g.objectKind.layout_target g.object)).append (.text (w := " TO ") (by decide) hgrantees)
  rw [Grant.sites, Grant.script]
  simp only [List.append_assoc, List.nil_append] at hobject ⊢
  exact .text (by decide) hobject

theorem Revoke.layout (r : Revoke) : Layout r.sites r.script := by
  have hbehavior : Tail _ (.text " " :: .text r.behavior.sql :: _) :=
    .text (by decide) (.text (by cases r.behavior <;> decide)
      (Extension.layout_slot "RevokeStatement" r.ext).layout)
  have hgrantees := (Script.layout_grantees r.grantees).append hbehavior
  have hobject := ((Privilege.layoutList r.privileges).append
    (r.objectKind.layout_target r.object)).append (.text (w := " FROM ") (by decide) hgrantees)
  rw [Revoke.sites, Revoke.script]
  simp only [List.append_assoc] at hobject ⊢
  cases r.grantOption with
  | false => exact .text (by decide) hobject
  | true => exact .text (by decide) (.text (by decide) hobject)

theorem SchemaElement.layout_inside (e : SchemaElement) : Layout e.inside e.script := by
  cases e with
  | table d => exact d.layout
  | view d => exact d.layout
  | domain d => exact d.layout
  | grant g => exact g.layout

theorem SchemaDef.layout (d : SchemaDef) : Layout d.sites d.script := by
  have howner : Tail (d.authorization.toList.map Site.ident)
      (d.authorization.elim [] fun owner => [.text " AUTHORIZATION ", .ident owner]) := by
    cases d.authorization with
    | none => exact .nil
    | some owner => exact .text (by decide) (.ident trivial .nil)
  have helements : Tail (d.elements.flatMap SchemaElement.sites)
      (d.elements.flatMap fun e => [.text " ", .guarded e.script]) :=
    Tail.flatMap (fun e => .text (by decide) e.layout_inside.nest) d.elements
  have hname := (((d.name.layout.append howner).append
    (Name.layoutOption " DEFAULT CHARACTER SET " d.characterSet (by decide))).append
      helements).append (Extension.layout_slot "SchemaDefinition" d.ext)
  rw [SchemaDef.sites, SchemaDef.script]
  cases hauthorization : d.authorization <;> rw [hauthorization] at hname <;> exact .text (by decide) hname

/-! ### Changes -/

theorem TableChange.layout (c : TableChange) : Layout c.sites c.script := by
  cases c with
  | addColumn column => exact .text (by decide) column.layout
  | alterColumn column change =>
      cases change with
      | set value =>
          have hset : Tail _ (.text " SET " :: _) := .text (by decide) value.layout
          exact .text (by decide) (.ident hset.leads hset.layout)
      | drop =>
          have hdrop : Tail [] [.text " DROP DEFAULT"] := .text (by decide) .nil
          exact .text (by decide) (.ident hdrop.leads hdrop.layout)
  | dropColumn column behavior =>
      have hdrop : Tail [] [.text " ", .text behavior.sql] :=
        .text (by decide) (.text (by cases behavior <;> decide) .nil)
      exact .text (by decide) (.ident hdrop.leads hdrop.layout)
  | addConstraint constraint =>
      exact .text (by decide) (constraint.layoutWith TableRule.layout)
  | dropConstraint name behavior =>
      have hdrop : Tail [] [.text " ", .text behavior.sql] :=
        .text (by decide) (.text (by cases behavior <;> decide) .nil)
      exact .text (by decide) (.ident hdrop.leads hdrop.layout)

theorem AlterTable.layout (a : AlterTable) : Layout a.sites a.script := by
  have hname := a.name.layout.append (.text (w := " ")
    (by decide) (a.change.layout.append (Extension.layout_slot "AlterTable" a.ext)))
  rw [AlterTable.sites, List.append_assoc]
  exact .text (by decide) hname

theorem DomainChange.layout (c : DomainChange) : Layout c.sites c.script := by
  cases c with
  | setDefault value => exact .text (by decide) value.layout
  | dropDefault => exact .text (by decide) .nil
  | addConstraint constraint =>
      exact .text (by decide) (constraint.layoutWith DomainRule.layout)
  | dropConstraint name => exact .text (by decide) (.ident trivial .nil)

theorem AlterDomain.layout (a : AlterDomain) : Layout a.sites a.script := by
  have hname := a.name.layout.append (.text (w := " ")
    (by decide) (a.change.layout.append (Extension.layout_slot "AlterDomain" a.ext)))
  rw [AlterDomain.sites, List.append_assoc]
  exact .text (by decide) hname

theorem Drop.layout (d : Drop) : Layout d.sites d.script := by
  have hkind : Text.Plain d.kind.sql := by cases d.kind <;> decide
  have hbehavior : Tail _ (.text " " :: .text d.behavior.sql :: _) :=
    .text (by decide) (.text (by cases d.behavior <;> decide)
      (Extension.layout_slot "Drop" d.ext).layout)
  exact .text (by decide) (.text hkind (.text (by decide) (d.name.layout.append hbehavior)))

/-! ### Statements -/

theorem Cell.layout (c : Cell) : Layout c.sites c.script := by
  cases c with
  | value e => exact e.layout
  | default => exact .text (by decide) .nil

theorem Cell.layout_row (cells : List Cell) : Layout (cells.flatMap Cell.sites) (Cell.row cells) :=
  .text (by decide) ((commas_map Cell.layout cells).ends (by decide))

theorem InsertRows.layout (r : InsertRows) : Tail r.sites r.script := by
  cases r with
  | values rows => exact .text (by decide) (commas_map Cell.layout_row rows)
  | query q => exact .text (by decide) q.layout
  | defaultValues => exact .text (by decide) .nil

theorem Insert.layout (i : Insert) : Layout i.sites i.script := by
  have htable := ((i.table.layout.append (Layout.columns i.columns)).append i.rows.layout).append
    (Extension.layout_slot "Insert" i.ext)
  exact .text (by decide) htable

theorem Assignment.layout (a : Assignment) : Layout a.sites a.script := by
  have hvalue : Tail _ (.text " = " :: _) := .text (by decide) a.value.layout
  exact .ident hvalue.leads hvalue.layout

theorem Update.layout (u : Update) : Layout u.sites u.script := by
  have hfilter := Expr.layoutOption " WHERE " u.filter (by decide)
  have hset := ((commas_map Assignment.layout u.assignments).append hfilter).append
    (Extension.layout_slot "Update" u.ext)
  have htable := u.table.layout.append (.text (w := " SET ") (by decide) hset)
  rw [Update.sites, Update.script]
  simp only [List.append_assoc] at htable ⊢
  exact .text (by decide) htable

theorem Delete.layout (d : Delete) : Layout d.sites d.script := by
  have htable := (d.table.layout.append (Expr.layoutOption " WHERE " d.filter (by decide))).append
    (Extension.layout_slot "Delete" d.ext)
  exact .text (by decide) htable

theorem Statement.layout (s : Statement) : Layout s.sites s.script := by
  refine .nest ?_
  cases s with
  | query q => exact q.layout
  | createSchema d => exact d.layout
  | createTable d => exact d.layout
  | createView d => exact d.layout
  | createDomain d => exact d.layout
  | grant g => exact g.layout
  | revoke r => exact r.layout
  | alterTable a => exact a.layout
  | alterDomain a => exact a.layout
  | drop d => exact d.layout
  | insert i => exact i.layout
  | update u => exact u.layout
  | delete d => exact d.layout

end TypedSql
