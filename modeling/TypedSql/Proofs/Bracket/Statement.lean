import TypedSql.Proofs.Bracket.Query

/-! The brackets of definitions, privileges, changes and statements match, unless an operator or a
numeral brings brackets of its own. -/

namespace TypedSql

open Text Script

namespace Script.Balanced

variable {o : Options} {α : Type} {f : α → Script} {as : List α}

theorem commas_map (h : ∀ a ∈ as, Balanced o (f a)) : Balanced o (Script.commas (as.map f)) :=
  commas (List.forall_mem_map.2 h)

theorem flatMap (h : ∀ a ∈ as, Balanced o (f a)) : Balanced o (as.flatMap f) := by
  induction as with
  | nil => exact nil
  | cons a as ih =>
      rw [List.forall_mem_cons] at h
      exact h.1.append (ih h.2)

end Script.Balanced

variable (o : Options)

/-! ### Defaults and constraints -/

theorem DefaultValue.balanced (d : DefaultValue) (h : ∀ site ∈ d.sites, site.Free BracketFree) :
    Balanced o d.script := by
  rw [DefaultValue.script]
  cases d with
  | literal l => exact .text (by decide) (.literal (h _ (List.mem_singleton_self _)))
  | currentTime p => exact .text (by decide) (.text (by decide) (.precision p))
  | currentTimestamp p => exact .text (by decide) (.text (by decide) (.precision p))
  | _ => exact .text (by decide) (.word (by decide))

theorem DefaultValue.balanced_clause (d : Option DefaultValue)
    (h : ∀ site ∈ DefaultValue.sitesOption d, site.Free BracketFree) :
    Balanced o (DefaultValue.clause d) := by
  cases d with
  | none => exact .nil
  | some d => exact .text (by decide) (d.balanced o h)

theorem Unique.balanced (u : Unique) : Balanced o u.script := by
  have hword : BracketFree (if u.primaryKey then "PRIMARY KEY" else "UNIQUE") := by
    cases u.primaryKey <;> decide
  exact .text hword ((Balanced.columns u.columns).append
    (Extension.balanced_slot o "UniqueConstraint" u.ext))

theorem ReferentialAction.balanced_clause (lead : String) (hlead : BracketFree lead)
    (action : Option ReferentialAction) : Balanced o (ReferentialAction.clause lead action) := by
  cases action with
  | none => exact .nil
  | some a => exact .text hlead (.word (by cases a <;> decide))

theorem Reference.balanced (r : Reference) : Balanced o r.script := by
  have hkey : Balanced o (if r.referring.isEmpty then []
      else .text "FOREIGN KEY " :: (Script.idents r.referring ++ [.text " "])) := by
    split
    · exact .nil
    · exact .text (by decide) ((Balanced.idents r.referring).append (.word (by decide)))
  have hmatch : BracketFree r.matchType.sql := by cases r.matchType <;> decide
  have hactions := ((ReferentialAction.balanced_clause o " ON UPDATE " (by decide) r.onUpdate).append
    (ReferentialAction.balanced_clause o " ON DELETE " (by decide) r.onDelete)).append
      (Extension.balanced_slot o "ReferenceConstraint" r.ext)
  have htarget := ((r.table.balanced o).append (Balanced.columns r.columns)).append
    (.text hmatch hactions)
  exact hkey.append (.text (by decide) htarget)

theorem Expr.balanced_check (e : Expr) (h : ∀ site ∈ e.sites, site.Free BracketFree) :
    Balanced o e.check :=
  .enclosed (by decide) (e.balanced o h) (by decide)

theorem ColumnRule.balanced (r : ColumnRule) (h : ∀ site ∈ r.sites, site.Free BracketFree) :
    Balanced o r.script := by
  cases r with
  | notNull => exact .word (by decide)
  | unique u => exact u.balanced o
  | references r => exact r.balanced o
  | check condition => exact condition.balanced_check o h
  | custom node => exact .custom "ColumnConstraint" node

theorem TableRule.balanced (r : TableRule) (h : ∀ site ∈ r.sites, site.Free BracketFree) :
    Balanced o r.script := by
  cases r with
  | unique u => exact u.balanced o
  | references r => exact r.balanced o
  | check condition => exact condition.balanced_check o h
  | custom node => exact .custom "TableConstraint" node

theorem DomainRule.balanced (r : DomainRule) (h : ∀ site ∈ r.sites, site.Free BracketFree) :
    Balanced o r.script :=
  r.condition.balanced_check o h

theorem CheckTime.balanced_clause (t : Option CheckTime) : Balanced o (CheckTime.clause t) := by
  cases t with
  | none => exact .nil
  | some t =>
      have hdeferred : BracketFree
          (if t.deferred then " INITIALLY DEFERRED" else " INITIALLY IMMEDIATE") := by
        cases t.deferred <;> decide
      have hdeferrable : BracketFree (if t.deferrable then " DEFERRABLE" else " NOT DEFERRABLE") := by
        cases t.deferrable <;> decide
      exact .text hdeferred (.text hdeferrable
        (Extension.balanced_slot o "ConstraintCheckTime" t.ext))

/-- A constraint is balanced where its rule is. -/
theorem Constraint.balancedWith {Rule : Type} {sites : Rule → List Site} {script : Rule → Script}
    (hrule : ∀ r, (∀ site ∈ sites r, site.Free BracketFree) → Balanced o (script r))
    (c : Constraint Rule) (h : ∀ site ∈ c.sitesWith sites, site.Free BracketFree) :
    Balanced o (c.scriptWith script) := by
  simp only [Constraint.sitesWith, List.forall_mem_append] at h
  have hname : Balanced o (c.name.elim [] fun name => [.text "CONSTRAINT ", .ident name, .text " "]) :=
    .elim c.name fun name => .text (by decide) ((Balanced.ident name).append (.word (by decide)))
  have hparts := ((hname.append (hrule c.rule h.1.1.2)).append
    (CheckTime.balanced_clause o c.checkTime)).append
      (Extension.balanced_slot o "ConstraintDefinition" c.ext)
  rw [Constraint.scriptWith]
  cases hn : c.name <;> rw [hn] at hparts <;> exact hparts

theorem Constraint.balanced_clauses {Rule : Type} {sites : Rule → List Site}
    {script : Rule → Script}
    (hrule : ∀ r, (∀ site ∈ sites r, site.Free BracketFree) → Balanced o (script r))
    (cs : List (Constraint Rule))
    (h : ∀ site ∈ Constraint.sitesList sites cs, site.Free BracketFree) :
    Balanced o (Constraint.clauses script cs) := by
  rw [Constraint.sitesList, List.forall_mem_flatMap] at h
  exact .flatMap fun c hc => .text (by decide) (c.balancedWith o hrule (h c hc))

/-! ### Definitions -/

theorem Name.balanced_clause (lead : String) (hlead : BracketFree lead) (name : Option Name) :
    Balanced o (Name.clause lead name) := by
  cases name with
  | none => exact .nil
  | some name => exact .text hlead (name.balanced o)

theorem ColumnType.balanced (t : ColumnType) : Balanced o t.script := by
  cases t with
  | type t => exact t.balanced o
  | domain name => exact name.balanced o

theorem Column.balanced (c : Column) (h : ∀ site ∈ c.sites, site.Free BracketFree) :
    Balanced o c.script := by
  simp only [Column.sites, List.cons_append, List.forall_mem_cons, List.forall_mem_append] at h
  obtain ⟨-, ⟨⟨⟨-, hdefault⟩, hconstraints⟩, -⟩, -⟩ := h
  have hparts := ((((c.type.balanced o).append
    (DefaultValue.balanced_clause o c.default hdefault)).append
      (Constraint.balanced_clauses o (ColumnRule.balanced o) c.constraints hconstraints)).append
        (Name.balanced_clause o " COLLATE " (by decide) c.collation)).append
          (Extension.balanced_slot o "ColumnDefinition" c.ext)
  exact (Balanced.ident c.name).append (.text (by decide) hparts)

theorem TableDef.balanced (d : TableDef) (h : ∀ site ∈ d.sites, site.Free BracketFree) :
    Balanced o d.script := by
  simp only [TableDef.sites, Constraint.sitesList, List.forall_mem_append,
    List.forall_mem_flatMap] at h
  obtain ⟨⟨⟨-, hcolumns⟩, hconstraints⟩, -⟩ := h
  have hmode : BracketFree d.mode.sql := by cases d.mode <;> decide
  have hparts : ∀ s ∈ d.columns.map Column.script
      ++ d.constraints.map (Constraint.scriptWith TableRule.script), Balanced o s := by
    rw [List.forall_mem_append, List.forall_mem_map, List.forall_mem_map]
    exact ⟨fun c hc => c.balanced o (hcolumns c hc),
      fun c hc => c.balancedWith o (TableRule.balanced o) (hconstraints c hc)⟩
  have hcommit : Balanced o
      (d.onCommit.elim [] fun action => [.text " ON COMMIT ", .text action.sql]) :=
    .elim d.onCommit fun action => .text (by decide) (.word (by cases action <;> decide))
  have hinside : Balanced o (.text " (" :: (Script.commas (d.columns.map Column.script
      ++ d.constraints.map (Constraint.scriptWith TableRule.script)) ++ [.text ")"])) :=
    .enclosed (by decide) (.commas hparts) (by decide)
  have hname := (d.name.balanced o).append (hinside.append
    (hcommit.append (Extension.balanced_slot o "TableDefinition" d.ext)))
  rw [TableDef.script]
  simp only [List.cons_append, List.append_assoc, List.nil_append] at hname ⊢
  cases haction : d.onCommit <;> rw [haction] at hname <;>
    exact .text (by decide) (.text hmode (.text (by decide) hname))

theorem ViewDef.balanced (d : ViewDef) (h : ∀ site ∈ d.sites, site.Free BracketFree) :
    Balanced o d.script := by
  simp only [ViewDef.sites, List.forall_mem_append] at h
  have hcheck : Balanced o (d.checkOption.elim [] fun option =>
      [.text " WITH ", .text option.sql, .text " CHECK OPTION"]) :=
    .elim d.checkOption fun option =>
      .text (by decide) (.text (by cases option <;> decide) (.word (by decide)))
  have hquery := (d.query.balanced o h.1.2).append
    (hcheck.append (Extension.balanced_slot o "ViewDefinition" d.ext))
  have hname := ((d.name.balanced o).append (Balanced.columns d.columns)).append
    (.text (w := " AS ") (by decide) hquery)
  rw [ViewDef.script]
  cases hoption : d.checkOption <;> rw [hoption] at hname <;> exact .text (by decide) hname

theorem DomainDef.balanced (d : DomainDef) (h : ∀ site ∈ d.sites, site.Free BracketFree) :
    Balanced o d.script := by
  simp only [DomainDef.sites, List.forall_mem_append] at h
  obtain ⟨⟨⟨⟨-, hdefault⟩, hconstraints⟩, -⟩, -⟩ := h
  have hparts := ((((d.type.balanced o).append
    (DefaultValue.balanced_clause o d.default hdefault)).append
      (Constraint.balanced_clauses o (DomainRule.balanced o) d.constraints hconstraints)).append
        (Name.balanced_clause o " COLLATE " (by decide) d.collation)).append
          (Extension.balanced_slot o "DomainDefinition" d.ext)
  exact .text (by decide) ((d.name.balanced o).append (.text (by decide) hparts))

/-! ### Privileges -/

theorem Privilege.balanced (p : Privilege) : Balanced o p.script := by
  have hkeyword : BracketFree p.keyword := by
    cases p with
    | insert _ => exact (by decide : BracketFree "INSERT")
    | update _ => exact (by decide : BracketFree "UPDATE")
    | references _ => exact (by decide : BracketFree "REFERENCES")
    | _ => decide
  rw [Privilege.script]
  cases p.columns? with
  | none => exact .word hkeyword
  | some columns => exact .text hkeyword (.text (by decide) (.idents columns))

theorem Privilege.balanced_list (privileges : Option (List Privilege)) :
    Balanced o (Privilege.list privileges) := by
  cases privileges with
  | none => exact .word (by decide)
  | some privileges => exact .commas_map fun p _ => p.balanced o

theorem Script.balanced_grantees (grantees : Option (List Ident)) :
    Balanced o (Script.grantees grantees) := by
  cases grantees with
  | none => exact .word (by decide)
  | some names => exact .commas_map fun i _ => .ident i

theorem ObjectKind.balanced_target (kind : ObjectKind) (object : Name) :
    Balanced o (kind.target object) := by
  have hkind : BracketFree kind.sql := by cases kind <;> decide
  exact .text (by decide) (.text hkind (.text (by decide) (object.balanced o)))

theorem Grant.balanced (g : Grant) : Balanced o g.script := by
  have hoption : Balanced o (if g.grantOption then [.text " WITH GRANT OPTION"] else []) := by
    split
    · exact .word (by decide)
    · exact .nil
  have hgrantees := ((Script.balanced_grantees o g.grantees).append hoption).append
    (Extension.balanced_slot o "GrantStatement" g.ext)
  have hobject := (Privilege.balanced_list o g.privileges).append
    (g.objectKind.balanced_target o g.object)
  exact .text (by decide) (hobject.append (.text (by decide) hgrantees))

theorem Revoke.balanced (r : Revoke) : Balanced o r.script := by
  have hoption : Balanced o (if r.grantOption then [.text "GRANT OPTION FOR "] else []) := by
    split
    · exact .word (by decide)
    · exact .nil
  have hbehavior : BracketFree r.behavior.sql := by cases r.behavior <;> decide
  have hgrantees := (Script.balanced_grantees o r.grantees).append (.text (w := " ") (by decide)
    (.text hbehavior (Extension.balanced_slot o "RevokeStatement" r.ext)))
  have hobject := (hoption.append (Privilege.balanced_list o r.privileges)).append
    (r.objectKind.balanced_target o r.object)
  exact .text (by decide) (hobject.append (.text (by decide) hgrantees))

theorem SchemaElement.balanced (e : SchemaElement)
    (h : ∀ site ∈ e.inside, site.Free BracketFree) : Balanced o e.script := by
  cases e with
  | table d => exact d.balanced o h
  | view d => exact d.balanced o h
  | domain d => exact d.balanced o h
  | grant g => exact g.balanced o

theorem SchemaDef.balanced (d : SchemaDef) (h : ∀ site ∈ d.sites, site.Free BracketFree) :
    Balanced o d.script := by
  simp only [SchemaDef.sites, List.forall_mem_append, List.forall_mem_flatMap, SchemaElement.sites,
    Site.forall_free_nest] at h
  have howner : Balanced o
      (d.authorization.elim [] fun owner => [.text " AUTHORIZATION ", .ident owner]) :=
    .elim d.authorization fun owner => .text (by decide) (.ident owner)
  have helements : Balanced o (d.elements.flatMap fun e => [.text " ", .guarded e.script]) :=
    .flatMap fun e he => .text (by decide) (.guarded (e.balanced o (h.1.2 e he)))
  have hname := ((((d.name.balanced o).append howner).append
    (Name.balanced_clause o " DEFAULT CHARACTER SET " (by decide) d.characterSet)).append
      helements).append (Extension.balanced_slot o "SchemaDefinition" d.ext)
  rw [SchemaDef.script]
  cases hauthorization : d.authorization <;> rw [hauthorization] at hname <;>
    exact .text (by decide) hname

/-! ### Changes -/

theorem TableChange.balanced (c : TableChange) (h : ∀ site ∈ c.sites, site.Free BracketFree) :
    Balanced o c.script := by
  have hbehavior (behavior : DropBehavior) : Balanced o [.text " ", .text behavior.sql] :=
    .text (by decide) (.word (by cases behavior <;> decide))
  cases c with
  | addColumn column => exact .text (by decide) (column.balanced o h)
  | alterColumn column change =>
      cases change with
      | set value =>
          rw [TableChange.sites, List.forall_mem_cons] at h
          exact .text (by decide)
            ((Balanced.ident column).append (.text (by decide) (value.balanced o h.2)))
      | drop => exact .text (by decide) ((Balanced.ident column).append (.word (by decide)))
  | dropColumn column behavior =>
      exact .text (by decide) ((Balanced.ident column).append (hbehavior behavior))
  | addConstraint constraint =>
      exact .text (by decide) (constraint.balancedWith o (TableRule.balanced o) h)
  | dropConstraint name behavior =>
      exact .text (by decide) ((Balanced.ident name).append (hbehavior behavior))

theorem AlterTable.balanced (a : AlterTable) (h : ∀ site ∈ a.sites, site.Free BracketFree) :
    Balanced o a.script := by
  simp only [AlterTable.sites, List.forall_mem_append] at h
  exact .text (by decide) ((a.name.balanced o).append (.text (by decide)
    ((a.change.balanced o h.1.2).append (Extension.balanced_slot o "AlterTable" a.ext))))

theorem DomainChange.balanced (c : DomainChange) (h : ∀ site ∈ c.sites, site.Free BracketFree) :
    Balanced o c.script := by
  cases c with
  | setDefault value => exact .text (by decide) (value.balanced o h)
  | dropDefault => exact .word (by decide)
  | addConstraint constraint =>
      exact .text (by decide) (constraint.balancedWith o (DomainRule.balanced o) h)
  | dropConstraint name => exact .text (by decide) (.ident name)

theorem AlterDomain.balanced (a : AlterDomain) (h : ∀ site ∈ a.sites, site.Free BracketFree) :
    Balanced o a.script := by
  simp only [AlterDomain.sites, List.forall_mem_append] at h
  exact .text (by decide) ((a.name.balanced o).append (.text (by decide)
    ((a.change.balanced o h.1.2).append (Extension.balanced_slot o "AlterDomain" a.ext))))

theorem Drop.balanced (d : Drop) : Balanced o d.script := by
  have hkind : BracketFree d.kind.sql := by cases d.kind <;> decide
  have hbehavior : BracketFree d.behavior.sql := by cases d.behavior <;> decide
  exact .text (by decide) (.text hkind (.text (by decide) ((d.name.balanced o).append
    (.text (by decide) (.text hbehavior (Extension.balanced_slot o "Drop" d.ext))))))

/-! ### Statements -/

theorem Cell.balanced (c : Cell) (h : ∀ site ∈ c.sites, site.Free BracketFree) :
    Balanced o c.script := by
  cases c with
  | value e => exact e.balanced o h
  | default => exact .word (by decide)

theorem Cell.balanced_row (cells : List Cell)
    (h : ∀ site ∈ cells.flatMap Cell.sites, site.Free BracketFree) :
    Balanced o (Cell.row cells) := by
  rw [List.forall_mem_flatMap] at h
  exact .enclosed (by decide) (.commas_map fun c hc => c.balanced o (h c hc)) (by decide)

theorem InsertRows.balanced (r : InsertRows) (h : ∀ site ∈ r.sites, site.Free BracketFree) :
    Balanced o r.script := by
  cases r with
  | values rows =>
      rw [InsertRows.sites, List.forall_mem_flatMap] at h
      exact .text (by decide) (.commas_map fun row hrow => Cell.balanced_row o row (h row hrow))
  | query q => exact .text (by decide) (q.balanced o h)
  | defaultValues => exact .word (by decide)

theorem Insert.balanced (i : Insert) (h : ∀ site ∈ i.sites, site.Free BracketFree) :
    Balanced o i.script := by
  simp only [Insert.sites, List.forall_mem_append] at h
  have htable := (((i.table.balanced o).append (Balanced.columns i.columns)).append
    (i.rows.balanced o h.1.2)).append (Extension.balanced_slot o "Insert" i.ext)
  exact .text (by decide) htable

theorem Assignment.balanced (a : Assignment) (h : ∀ site ∈ a.sites, site.Free BracketFree) :
    Balanced o a.script := by
  rw [Assignment.sites, List.forall_mem_cons] at h
  exact (Balanced.ident a.column).append (.text (by decide) (a.value.balanced o h.2))

theorem Update.balanced (u : Update) (h : ∀ site ∈ u.sites, site.Free BracketFree) :
    Balanced o u.script := by
  simp only [Update.sites, List.forall_mem_append, List.forall_mem_flatMap] at h
  obtain ⟨⟨⟨-, hassignments⟩, hfilter⟩, -⟩ := h
  have hset : Balanced o (Script.commas (u.assignments.map Assignment.script)) :=
    .commas_map fun a ha => a.balanced o (hassignments a ha)
  have hparts := (hset.append (Expr.balanced_clause o " WHERE " (by decide) u.filter hfilter)).append
    (Extension.balanced_slot o "Update" u.ext)
  exact .text (by decide) ((u.table.balanced o).append (.text (by decide) hparts))

theorem Delete.balanced (d : Delete) (h : ∀ site ∈ d.sites, site.Free BracketFree) :
    Balanced o d.script := by
  simp only [Delete.sites, List.forall_mem_append] at h
  have htable := ((d.table.balanced o).append
    (Expr.balanced_clause o " WHERE " (by decide) d.filter h.1.2)).append
      (Extension.balanced_slot o "Delete" d.ext)
  exact .text (by decide) htable

theorem Statement.balanced (s : Statement) (h : ∀ site ∈ s.sites, site.Free BracketFree) :
    Balanced o s.script := by
  rw [Statement.sites, Site.forall_free_nest] at h
  refine .guarded ?_
  cases s with
  | query q => exact q.balanced o h
  | createSchema d => exact d.balanced o h
  | createTable d => exact d.balanced o h
  | createView d => exact d.balanced o h
  | createDomain d => exact d.balanced o h
  | grant g => exact g.balanced o
  | revoke r => exact r.balanced o
  | alterTable a => exact a.balanced o h
  | alterDomain a => exact a.balanced o h
  | drop d => exact d.balanced o
  | insert i => exact i.balanced o h
  | update u => exact u.balanced o h
  | delete d => exact d.balanced o h

end TypedSql
