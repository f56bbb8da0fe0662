import TypedSql.Proofs.Layout

/-! The layouts of expressions, queries, selects and row sources. What stands after a guarded node
starts with a separator everywhere, so no layout depends on what is inside a guard. -/

namespace TypedSql

open Layout

mutual

theorem Expr.layout (e : Expr) : Layout e.sites e.script := by
  rw [Expr.script]
  cases e with
  | ident i =>
      rw [Expr.sites, Expr.body]
      exact .nest (.ident trivial .nil)
  | compound segments =>
      rw [Expr.sites, Expr.body]
      exact .nest (Site.layout_compound segments)
  | wildcard =>
      rw [Expr.sites, Expr.body]
      exact .nest (.text (by decide) .nil)
  | qualifiedWildcard qualifiers =>
      rw [Expr.sites, Expr.body]
      cases qualifiers with
      | nil => exact .nest (.text (by decide) .nil)
      | cons i is =>
          have hstar : Tail [] [.text ".", .text "*"] := .text (by decide) (.text (by decide) .nil)
          have hchain := (ident_map (w := ".") (i :: is) (by decide)).append hstar
          rw [List.append_nil] at hchain
          exact .nest hchain
  | binary left op right =>
      rw [Expr.sites, Expr.body, List.append_assoc]
      exact .nest (left.layout.cons (.text (by decide) (op.layout (.text (by decide) right.layout))))
  | unary op operand =>
      rw [Expr.sites, Expr.body]
      exact .nest (op.layout operand.layout)
  | between e negated low high =>
      rw [Expr.sites, Expr.body, List.append_assoc]
      have hand : Layout (low.sites ++ high.sites)
          [.guarded low.body, .text " AND ", .guarded high.body] :=
        low.layout.cons (.text (by decide) high.layout)
      cases negated with
      | false => exact .nest (e.layout.cons (.text (by decide) hand))
      | true => exact .nest (e.layout.cons (.text (by decide) hand))
  | caseOf operand arms otherwise =>
      rw [Expr.sites, Expr.body]
      have hoperand := Expr.layoutOption " " operand (by decide)
      have hotherwise := Expr.layoutOption " ELSE " otherwise (by decide)
      have hparts := (hoperand.append (CaseArm.layoutList arms)).append hotherwise
      exact .nest (.text (by decide) (hparts.layout.ends (by decide)))
  | cast e type =>
      rw [Expr.sites, Expr.body]
      exact .nest (.text (by decide) (e.layout.cons (.text (by decide) (type.layout.ends (by decide)))))
  | collate e collation =>
      rw [Expr.sites, Expr.body]
      exact .nest (e.layout.cons (.text (by decide) collation.layout))
  | existsQuery q =>
      rw [Expr.sites, Expr.body]
      exact .nest (.text (by decide) (q.layout.ends (by decide)))
  | extract field source =>
      rw [Expr.sites, Expr.body]
      have hfield : Text.Plain field.sql := by cases field <;> decide
      have hsource : Layout source.sites [.text " FROM ", .guarded source.body, .text ")"] :=
        .text (by decide) (source.layout.ends (by decide))
      exact .nest (.text (by decide) (.text hfield hsource))
  | apply function args =>
      rw [Expr.sites, Expr.body]
      exact .nest (function.layout.cons (.text (by decide) ((Expr.layoutList args).ends (by decide))))
  | isNull e negated =>
      rw [Expr.sites, Expr.body]
      cases negated with
      | false => exact .nest (e.layout.ends (by decide))
      | true => exact .nest (e.layout.ends (by decide))
  | inList e list negated =>
      rw [Expr.sites, Expr.body]
      have hlist : Layout (Expr.sitesList list)
          (Script.commas (Expr.scripts list) ++ [.text ")"]) := (Expr.layoutList list).ends (by decide)
      cases negated with
      | false => exact .nest (e.layout.cons (.text (by decide) hlist))
      | true => exact .nest (e.layout.cons (.text (by decide) hlist))
  | inQuery e q negated =>
      rw [Expr.sites, Expr.body]
      have hq : Layout q.sites [.guarded q.body, .text ")"] := q.layout.ends (by decide)
      cases negated with
      | false => exact .nest (e.layout.cons (.text (by decide) hq))
      | true => exact .nest (e.layout.cons (.text (by decide) hq))
  | literal l =>
      rw [Expr.sites, Expr.body]
      exact .nest (.literal trivial .nil)
  | paren e =>
      rw [Expr.sites, Expr.body]
      exact .nest (.text (by decide) (e.layout.ends (by decide)))
  | subquery q =>
      rw [Expr.sites, Expr.body]
      exact .nest (.text (by decide) (q.layout.ends (by decide)))
  | custom node =>
      rw [Expr.sites, Expr.body]
      exact .nest (.node .nil)

theorem Expr.layoutList (es : List Expr) :
    Layout (Expr.sitesList es) (Script.commas (Expr.scripts es)) := by
  cases es with
  | nil => exact .nil
  | cons e es =>
      rw [Expr.sitesList, Expr.scripts]
      exact intercalate_cons e.layout (Expr.layoutList es) (by decide)

theorem Expr.layoutOption (lead : String) (e : Option Expr) (hlead : Text.Lead lead) :
    Tail (Expr.sitesOption e) (Expr.clause lead e) := by
  cases e with
  | none => exact .nil
  | some e =>
      rw [Expr.sitesOption, Expr.clause]
      exact .text hlead e.layout

theorem CaseArm.layoutList (arms : List CaseArm) :
    Tail (CaseArm.sitesList arms) (CaseArm.script arms) := by
  cases arms with
  | nil => exact .nil
  | cons arm arms =>
      obtain ⟨condition, result⟩ := arm
      rw [CaseArm.sitesList, CaseArm.script, List.append_assoc]
      have hresult := result.layout.cons (CaseArm.layoutList arms)
      exact .text (by decide) (condition.layout.cons (.text (by decide) hresult))

theorem Query.layout (q : Query) : Layout q.sites q.script := by
  obtain ⟨ctes, select, setOps, orderBy, limit, offset, ext⟩ := q
  have hkeys : Tail (OrderKey.sitesList orderBy) (if orderBy.isEmpty then []
      else .text " ORDER BY " :: Script.commas (OrderKey.scripts orderBy)) := by
    cases orderBy with
    | nil => exact .nil
    | cons key keys => exact .text (by decide) (OrderKey.layoutList (key :: keys))
  have hlimit := Expr.layoutOption " LIMIT " limit (by decide)
  have hoffset := Expr.layoutOption " OFFSET " offset (by decide)
  have hrest := ((((SetOp.layoutList setOps).append hkeys).append hlimit).append hoffset).append
    (Extension.layout_slot "Query" ext)
  have hselect := select.layout.cons hrest
  rw [Query.script, Query.sites, Query.body]
  simp only [List.append_assoc] at hselect ⊢
  cases ctes with
  | nil => exact .nest hselect
  | cons cte ctes =>
      have hctes : Layout (Cte.sitesList (cte :: ctes))
          (Script.commas (Cte.scripts (cte :: ctes))) := Cte.layoutList (cte :: ctes)
      have hwith := hctes.append (.text (w := " ") (by decide) hselect)
      simp only [List.isEmpty_cons, Bool.false_eq_true, if_false, List.append_assoc,
        List.cons_append, List.nil_append]
      exact .nest (.text (by decide) hwith)

theorem Cte.layoutList (ctes : List Cte) :
    Layout (Cte.sitesList ctes) (Script.commas (Cte.scripts ctes)) := by
  cases ctes with
  | nil => exact .nil
  | cons cte ctes =>
      obtain ⟨name, columns, query, ext⟩ := cte
      have hslot : Tail (Site.slot "CommonTableExpr" ext)
          (.text ")" :: Extension.slot "CommonTableExpr" ext) :=
        .text (by decide) (Extension.layout_slot "CommonTableExpr" ext).layout
      have hquery : Tail (query.sites ++ Site.slot "CommonTableExpr" ext)
          (.text " AS (" :: .guarded query.body :: .text ")"
            :: Extension.slot "CommonTableExpr" ext) :=
        .text (by decide) (query.layout.cons hslot)
      have hrest := (Layout.columns columns).append hquery
      have hcte := intercalate_cons (w := ", ") (Layout.ident (i := name) hrest.leads hrest.layout)
        (Cte.layoutList ctes) (by decide)
      rw [Cte.sitesList, Cte.scripts]
      simp only [List.append_assoc, List.cons_append] at hcte ⊢
      exact hcte

theorem SetOp.layoutList (ops : List SetOp) : Tail (SetOp.sitesList ops) (SetOp.script ops) := by
  cases ops with
  | nil => exact .nil
  | cons op ops =>
      obtain ⟨operator, all, select, ext⟩ := op
      have hselect : Layout (select.sites ++ (Site.slot "SetOp" ext ++ SetOp.sitesList ops))
          (.text " " :: .guarded select.body
            :: (Extension.slot "SetOp" ext ++ SetOp.script ops)) :=
        .text (by decide)
          (select.layout.cons ((Extension.layout_slot "SetOp" ext).append (SetOp.layoutList ops)))
      have hoperator : Text.Plain operator.sql := by cases operator <;> decide
      rw [SetOp.sitesList, SetOp.script, List.append_assoc]
      cases all with
      | false => exact .text (by decide) (.text hoperator hselect)
      | true => exact .text (by decide) (.text hoperator (.text (by decide) hselect))

theorem OrderKey.layoutList (keys : List OrderKey) :
    Layout (OrderKey.sitesList keys) (Script.commas (OrderKey.scripts keys)) := by
  cases keys with
  | nil => exact .nil
  | cons key keys =>
      obtain ⟨e, direction, nulls, ext⟩ := key
      have hdirection : Tail []
          (match direction with | none => [] | some d => [.text " ", .text d.sql]) := by
        cases direction with
        | none => exact .nil
        | some d => exact .text (by decide) (.text (by cases d <;> decide) .nil)
      have hnulls : Tail []
          (match nulls with | none => [] | some n => [.text " ", .text n.sql]) := by
        cases nulls with
        | none => exact .nil
        | some n => exact .text (by decide) (.text (by cases n <;> decide) .nil)
      have hkey := e.layout.cons ((hdirection.append hnulls).append
        (Extension.layout_slot "OrderingExpr" ext))
      rw [OrderKey.sitesList, OrderKey.scripts.eq_def]
      exact intercalate_cons hkey (OrderKey.layoutList keys) (by decide)

theorem Select.layout (s : Select) : Layout s.sites s.script := by
  obtain ⟨items, source, filter, groupBy, having, ext⟩ := s
  have hgroups : Tail (Expr.sitesList groupBy) (if groupBy.isEmpty then []
      else .text " GROUP BY " :: Script.commas (Expr.scripts groupBy)) := by
    cases groupBy with
    | nil => exact .nil
    | cons e es => exact .text (by decide) (Expr.layoutList (e :: es))
  have hfilter := Expr.layoutOption " WHERE " filter (by decide)
  have hhaving := Expr.layoutOption " HAVING " having (by decide)
  have hitems := (((((SelectItem.layoutList items).append (FromClause.layoutOption source)).append
    hfilter).append hgroups).append hhaving).append (Extension.layout_slot "Select" ext)
  rw [Select.script, Select.sites, Select.body]
  exact .nest (.text (by decide) hitems)

theorem SelectItem.layoutList (items : List SelectItem) :
    Layout (SelectItem.sitesList items) (Script.commas (SelectItem.scripts items)) := by
  cases items with
  | nil => exact .nil
  | cons item items =>
      obtain ⟨e, label⟩ := item
      have hlabel : Tail (label.toList.map Site.ident)
          (match label with | none => [] | some a => [.text " AS ", .ident a]) := by
        cases label with
        | none => exact .nil
        | some a => exact .text (by decide) (.ident trivial .nil)
      rw [SelectItem.sitesList, SelectItem.scripts.eq_def]
      exact intercalate_cons (e.layout.cons hlabel) (SelectItem.layoutList items) (by decide)

theorem FromClause.layoutOption (source : Option FromClause) :
    Tail (FromClause.sitesOption source) (FromClause.clause source) := by
  cases source with
  | none => exact .nil
  | some clause =>
      obtain ⟨source, joins, ext⟩ := clause
      rw [FromClause.sitesOption, FromClause.clause, List.append_assoc]
      exact .text (by decide) (source.layout.cons
        ((Join.layoutList joins).append (Extension.layout_slot "JoinedTable" ext)))

theorem Join.layoutList (joins : List Join) : Tail (Join.sitesList joins) (Join.script joins) := by
  cases joins with
  | nil => exact .nil
  | cons join joins =>
      obtain ⟨kind, source, on, ext⟩ := join
      have hon : Tail (on.sites ++ (Site.slot "Join" ext ++ Join.sitesList joins))
          (.text " ON " :: .guarded on.body :: (Extension.slot "Join" ext ++ Join.script joins)) :=
        .text (by decide) (on.layout.cons
          ((Extension.layout_slot "Join" ext).append (Join.layoutList joins)))
      have hsource := kind.layout.append (.text (w := " JOIN ") (by decide) (source.layout.cons hon))
      rw [Join.sitesList, Join.script]
      simp only [List.append_assoc]
      exact .text (by decide) hsource

theorem RowSource.layout (s : RowSource) : Layout s.sites s.script := by
  rw [RowSource.script]
  cases s with
  | table name =>
      rw [RowSource.sites, RowSource.body]
      exact .nest name.layout
  | derived q label =>
      rw [RowSource.sites, RowSource.body]
      exact .nest (.text (by decide) (q.layout.cons (.text (by decide) (.ident trivial .nil))))
  | function e label =>
      rw [RowSource.sites, RowSource.body]
      exact .nest (.text (by decide) (e.layout.cons (.text (by decide) (.ident trivial .nil))))
  | custom node =>
      rw [RowSource.sites, RowSource.body]
      exact .nest (.node .nil)

end

end TypedSql
