import TypedSql.Proofs.Bracket

/-! The brackets of expressions, queries, selects and row sources match, unless an operator or a numeral
brings brackets of its own. -/

namespace TypedSql

open Text Script

theorem SelectItem.scripts_elim (e : Expr) (label : Option Ident) (items : List SelectItem) :
    SelectItem.scripts (⟨e, label⟩ :: items) =
      (.guarded e.body :: label.elim [] fun a => [.text " AS ", .ident a])
        :: SelectItem.scripts items := by
  cases label <;> rfl

theorem OrderKey.scripts_elim (e : Expr) (direction : Option Direction) (nulls : Option NullsOrder)
    (ext : Option Extension) (keys : List OrderKey) :
    OrderKey.scripts (⟨e, direction, nulls, ext⟩ :: keys) =
      (.guarded e.body :: ((direction.elim [] fun d => [.text " ", .text d.sql])
        ++ (nulls.elim [] fun n => [.text " ", .text n.sql])
        ++ Extension.slot "OrderingExpr" ext)) :: OrderKey.scripts keys := by
  cases direction <;> cases nulls <;> rfl

mutual

theorem Expr.balanced (o : Options) (e : Expr) (h : ∀ site ∈ e.sites, site.Free BracketFree) :
    Balanced o e.script := by
  rw [Expr.script]
  cases e with
  | ident i =>
      rw [Expr.body]
      exact .guarded (.ident i)
  | compound segments =>
      rw [Expr.body]
      exact .guarded (.compound segments)
  | wildcard =>
      rw [Expr.body]
      exact .guarded (.word (by decide))
  | qualifiedWildcard qualifiers =>
      rw [Expr.body]
      split
      · exact .guarded (.word (by decide))
      · exact .guarded ((Balanced.chain qualifiers).append (.text (by decide) (.word (by decide))))
  | binary left op right =>
      simp only [Expr.sites, Site.forall_free_nest, List.forall_mem_append] at h
      obtain ⟨⟨hleft, hop⟩, hright⟩ := h
      rw [Expr.body]
      exact .guarded ((left.balanced o hleft).append (.text (by decide) (.text
        (BinaryOp.bracketFree hop) (.text (by decide) (right.balanced o hright)))))
  | unary op operand =>
      simp only [Expr.sites, Site.forall_free_nest, List.forall_mem_append] at h
      rw [Expr.body]
      exact .guarded (.text (UnaryOp.bracketFree h.1) (operand.balanced o h.2))
  | between e negated low high =>
      simp only [Expr.sites, Site.forall_free_nest, List.forall_mem_append] at h
      obtain ⟨⟨he, hlow⟩, hhigh⟩ := h
      rw [Expr.body]
      have hword : BracketFree (if negated then " NOT BETWEEN " else " BETWEEN ") := by
        cases negated <;> decide
      exact .guarded ((e.balanced o he).append (.text hword
        ((low.balanced o hlow).append (.text (by decide) (high.balanced o hhigh)))))
  | caseOf operand arms otherwise =>
      simp only [Expr.sites, Site.forall_free_nest, List.forall_mem_append] at h
      obtain ⟨⟨hoperand, harms⟩, hotherwise⟩ := h
      rw [Expr.body]
      have hparts := ((Expr.balanced_clause o " " (by decide) operand hoperand).append
        (CaseArm.balanced_list o arms harms)).append
          (Expr.balanced_clause o " ELSE " (by decide) otherwise hotherwise)
      exact .guarded (.text (by decide) (hparts.append (.word (by decide))))
  | cast e type =>
      simp only [Expr.sites, Site.forall_free_nest, List.forall_mem_append] at h
      rw [Expr.body]
      have hinside := (e.balanced o h.1).append (.text (w := " AS ") (by decide) (type.balanced o))
      exact .guarded (.enclosed (by decide) hinside (by decide))
  | collate e collation =>
      simp only [Expr.sites, Site.forall_free_nest, List.forall_mem_append] at h
      rw [Expr.body]
      exact .guarded ((e.balanced o h.1).append (.text (by decide) (collation.balanced o)))
  | existsQuery q =>
      rw [Expr.sites, Site.forall_free_nest] at h
      rw [Expr.body]
      exact .guarded (.enclosed (by decide) (q.balanced o h) (by decide))
  | extract field source =>
      rw [Expr.sites, Site.forall_free_nest] at h
      rw [Expr.body]
      have hfield : BracketFree field.sql := by cases field <;> decide
      have hinside := Balanced.text hfield (.text (w := " FROM ") (by decide) (source.balanced o h))
      exact .guarded (.enclosed (by decide) hinside (by decide))
  | apply function args =>
      simp only [Expr.sites, Site.forall_free_nest, List.forall_mem_append] at h
      rw [Expr.body]
      have hargs := Balanced.commas (Expr.balanced_list o args h.2)
      exact .guarded ((function.balanced o h.1).append (.enclosed (by decide) hargs (by decide)))
  | isNull e negated =>
      rw [Expr.sites, Site.forall_free_nest] at h
      rw [Expr.body]
      have hword : BracketFree (if negated then " IS NOT NULL" else " IS NULL") := by
        cases negated <;> decide
      exact .guarded ((e.balanced o h).append (.word hword))
  | inList e list negated =>
      simp only [Expr.sites, Site.forall_free_nest, List.forall_mem_append] at h
      rw [Expr.body]
      have hopens : Opens (if negated then " NOT IN (" else " IN (") := by cases negated <;> decide
      have hlist := Balanced.commas (Expr.balanced_list o list h.2)
      exact .guarded ((e.balanced o h.1).append (.enclosed hopens hlist (by decide)))
  | inQuery e q negated =>
      simp only [Expr.sites, Site.forall_free_nest, List.forall_mem_append] at h
      rw [Expr.body]
      have hopens : Opens (if negated then " NOT IN (" else " IN (") := by cases negated <;> decide
      exact .guarded ((e.balanced o h.1).append (.enclosed hopens (q.balanced o h.2) (by decide)))
  | literal l =>
      rw [Expr.sites, Site.forall_free_nest] at h
      rw [Expr.body]
      exact .guarded (.literal (h _ (List.mem_singleton_self _)))
  | paren e =>
      rw [Expr.sites, Site.forall_free_nest] at h
      rw [Expr.body]
      exact .guarded (.enclosed (by decide) (e.balanced o h) (by decide))
  | subquery q =>
      rw [Expr.sites, Site.forall_free_nest] at h
      rw [Expr.body]
      exact .guarded (.enclosed (by decide) (q.balanced o h) (by decide))
  | custom node =>
      rw [Expr.body]
      exact .guarded (.custom "Expr" node)

theorem Expr.balanced_list (o : Options) (es : List Expr)
    (h : ∀ site ∈ Expr.sitesList es, site.Free BracketFree) :
    ∀ s ∈ Expr.scripts es, Balanced o s := by
  cases es with
  | nil => exact nofun
  | cons e es =>
      rw [Expr.sitesList, List.forall_mem_append] at h
      rw [Expr.scripts, List.forall_mem_cons]
      exact ⟨e.balanced o h.1, Expr.balanced_list o es h.2⟩

theorem Expr.balanced_clause (o : Options) (lead : String) (hlead : BracketFree lead)
    (e : Option Expr) (h : ∀ site ∈ Expr.sitesOption e, site.Free BracketFree) :
    Balanced o (Expr.clause lead e) := by
  cases e with
  | none => exact .nil
  | some e =>
      rw [Expr.sitesOption] at h
      exact .text hlead (e.balanced o h)

theorem CaseArm.balanced_list (o : Options) (arms : List CaseArm)
    (h : ∀ site ∈ CaseArm.sitesList arms, site.Free BracketFree) :
    Balanced o (CaseArm.script arms) := by
  cases arms with
  | nil => exact .nil
  | cons arm arms =>
      obtain ⟨condition, result⟩ := arm
      simp only [CaseArm.sitesList, List.forall_mem_append] at h
      obtain ⟨⟨hcondition, hresult⟩, harms⟩ := h
      exact .text (by decide) ((condition.balanced o hcondition).append (.text (by decide)
        ((result.balanced o hresult).append (CaseArm.balanced_list o arms harms))))

theorem Query.balanced (o : Options) (q : Query) (h : ∀ site ∈ q.sites, site.Free BracketFree) :
    Balanced o q.script := by
  obtain ⟨ctes, select, setOps, orderBy, limit, offset, ext⟩ := q
  simp only [Query.sites, Site.forall_free_nest, List.forall_mem_append] at h
  obtain ⟨⟨⟨⟨⟨⟨hctes, hselect⟩, hops⟩, hkeys⟩, hlimit⟩, hoffset⟩, -⟩ := h
  have hwith : Balanced o (if ctes.isEmpty then []
      else .text "WITH " :: (Script.commas (Cte.scripts ctes) ++ [.text " "])) := by
    split
    · exact .nil
    · exact .text (by decide)
        ((Balanced.commas (Cte.balanced_list o ctes hctes)).append (.word (by decide)))
  have horder : Balanced o (if orderBy.isEmpty then []
      else .text " ORDER BY " :: Script.commas (OrderKey.scripts orderBy)) := by
    split
    · exact .nil
    · exact .text (by decide) (.commas (OrderKey.balanced_list o orderBy hkeys))
  have hrest := ((((SetOp.balanced_list o setOps hops).append horder).append
    (Expr.balanced_clause o " LIMIT " (by decide) limit hlimit)).append
      (Expr.balanced_clause o " OFFSET " (by decide) offset hoffset)).append
        (Extension.balanced_slot o "Query" ext)
  rw [Query.script, Query.body]
  exact .guarded (hwith.append ((select.balanced o hselect).append hrest))

theorem Cte.balanced_list (o : Options) (ctes : List Cte)
    (h : ∀ site ∈ Cte.sitesList ctes, site.Free BracketFree) :
    ∀ s ∈ Cte.scripts ctes, Balanced o s := by
  cases ctes with
  | nil => exact nofun
  | cons cte ctes =>
      obtain ⟨name, columns, query, ext⟩ := cte
      simp only [Cte.sitesList, List.cons_append, List.forall_mem_cons, List.forall_mem_append] at h
      obtain ⟨-, ⟨⟨-, hquery⟩, -⟩, hctes⟩ := h
      have hinside : Balanced o (.text " AS (" :: ([.guarded query.body] ++ [.text ")"])) :=
        .enclosed (by decide) (query.balanced o hquery) (by decide)
      rw [Cte.scripts, List.forall_mem_cons]
      exact ⟨(Balanced.ident name).append ((Balanced.columns columns).append
          (hinside.append (Extension.balanced_slot o "CommonTableExpr" ext))),
        Cte.balanced_list o ctes hctes⟩

theorem SetOp.balanced_list (o : Options) (ops : List SetOp)
    (h : ∀ site ∈ SetOp.sitesList ops, site.Free BracketFree) : Balanced o (SetOp.script ops) := by
  cases ops with
  | nil => exact .nil
  | cons op ops =>
      obtain ⟨operator, all, select, ext⟩ := op
      simp only [SetOp.sitesList, List.forall_mem_append] at h
      obtain ⟨⟨hselect, -⟩, hops⟩ := h
      have hoperator : BracketFree operator.sql := by cases operator <;> decide
      have hall : Balanced o (if all then [.text " ALL"] else []) := by
        split
        · exact .word (by decide)
        · exact .nil
      have hrest := (select.balanced o hselect).append
        ((Extension.balanced_slot o "SetOp" ext).append (SetOp.balanced_list o ops hops))
      exact .text (by decide) (.text hoperator (hall.append (.text (by decide) hrest)))

theorem OrderKey.balanced_list (o : Options) (keys : List OrderKey)
    (h : ∀ site ∈ OrderKey.sitesList keys, site.Free BracketFree) :
    ∀ s ∈ OrderKey.scripts keys, Balanced o s := by
  cases keys with
  | nil => exact nofun
  | cons key keys =>
      obtain ⟨e, direction, nulls, ext⟩ := key
      simp only [OrderKey.sitesList, List.forall_mem_append] at h
      obtain ⟨⟨he, -⟩, hkeys⟩ := h
      have hdirection : Balanced o (direction.elim [] fun d => [.text " ", .text d.sql]) :=
        .elim direction fun d => .text (by decide) (.word (by cases d <;> decide))
      have hnulls : Balanced o (nulls.elim [] fun n => [.text " ", .text n.sql]) :=
        .elim nulls fun n => .text (by decide) (.word (by cases n <;> decide))
      rw [OrderKey.scripts_elim, List.forall_mem_cons]
      exact ⟨(e.balanced o he).append ((hdirection.append hnulls).append
        (Extension.balanced_slot o "OrderingExpr" ext)), OrderKey.balanced_list o keys hkeys⟩

theorem Select.balanced (o : Options) (s : Select) (h : ∀ site ∈ s.sites, site.Free BracketFree) :
    Balanced o s.script := by
  obtain ⟨items, source, filter, groupBy, having, ext⟩ := s
  simp only [Select.sites, Site.forall_free_nest, List.forall_mem_append] at h
  obtain ⟨⟨⟨⟨⟨hitems, hsource⟩, hfilter⟩, hgroups⟩, hhaving⟩, -⟩ := h
  have hgroupBy : Balanced o (if groupBy.isEmpty then []
      else .text " GROUP BY " :: Script.commas (Expr.scripts groupBy)) := by
    split
    · exact .nil
    · exact .text (by decide) (.commas (Expr.balanced_list o groupBy hgroups))
  have hparts := (((((Balanced.commas (SelectItem.balanced_list o items hitems)).append
    (FromClause.balanced_clause o source hsource)).append
      (Expr.balanced_clause o " WHERE " (by decide) filter hfilter)).append hgroupBy).append
        (Expr.balanced_clause o " HAVING " (by decide) having hhaving)).append
          (Extension.balanced_slot o "Select" ext)
  rw [Select.script, Select.body]
  exact .guarded (.text (by decide) hparts)

theorem SelectItem.balanced_list (o : Options) (items : List SelectItem)
    (h : ∀ site ∈ SelectItem.sitesList items, site.Free BracketFree) :
    ∀ s ∈ SelectItem.scripts items, Balanced o s := by
  cases items with
  | nil => exact nofun
  | cons item items =>
      obtain ⟨e, label⟩ := item
      simp only [SelectItem.sitesList, List.forall_mem_append] at h
      obtain ⟨⟨he, -⟩, hitems⟩ := h
      have hlabel : Balanced o (label.elim [] fun a => [.text " AS ", .ident a]) :=
        .elim label fun a => .text (by decide) (.ident a)
      rw [SelectItem.scripts_elim, List.forall_mem_cons]
      exact ⟨(e.balanced o he).append hlabel, SelectItem.balanced_list o items hitems⟩

theorem FromClause.balanced_clause (o : Options) (source : Option FromClause)
    (h : ∀ site ∈ FromClause.sitesOption source, site.Free BracketFree) :
    Balanced o (FromClause.clause source) := by
  cases source with
  | none => exact .nil
  | some clause =>
      obtain ⟨source, joins, ext⟩ := clause
      simp only [FromClause.sitesOption, List.forall_mem_append] at h
      obtain ⟨⟨hsource, hjoins⟩, -⟩ := h
      exact .text (by decide) ((source.balanced o hsource).append
        ((Join.balanced_list o joins hjoins).append (Extension.balanced_slot o "JoinedTable" ext)))

theorem Join.balanced_list (o : Options) (joins : List Join)
    (h : ∀ site ∈ Join.sitesList joins, site.Free BracketFree) : Balanced o (Join.script joins) := by
  cases joins with
  | nil => exact .nil
  | cons join joins =>
      obtain ⟨kind, source, on, ext⟩ := join
      simp only [Join.sitesList, List.forall_mem_append] at h
      obtain ⟨⟨⟨⟨-, hsource⟩, hon⟩, -⟩, hjoins⟩ := h
      have hrest := (on.balanced o hon).append
        ((Extension.balanced_slot o "Join" ext).append (Join.balanced_list o joins hjoins))
      exact .text (by decide) ((kind.balanced o).append (.text (by decide)
        ((source.balanced o hsource).append (.text (by decide) hrest))))

theorem RowSource.balanced (o : Options) (s : RowSource)
    (h : ∀ site ∈ s.sites, site.Free BracketFree) : Balanced o s.script := by
  rw [RowSource.script]
  cases s with
  | table name =>
      rw [RowSource.body]
      exact .guarded (name.balanced o)
  | derived q label =>
      simp only [RowSource.sites, Site.forall_free_nest, List.forall_mem_append] at h
      have hinside : Balanced o (.text "(" :: ([.guarded q.body] ++ [.text ") AS "])) :=
        .enclosed (by decide) (q.balanced o h.1) (by decide)
      rw [RowSource.body]
      exact .guarded (hinside.append (.ident label))
  | function e label =>
      simp only [RowSource.sites, Site.forall_free_nest, List.forall_mem_append] at h
      have hinside : Balanced o (.text "(" :: ([.guarded e.body] ++ [.text ") AS "])) :=
        .enclosed (by decide) (e.balanced o h.1) (by decide)
      rw [RowSource.body]
      exact .guarded (hinside.append (.ident label))
  | custom node =>
      rw [RowSource.body]
      exact .guarded (.custom "Table" node)

end

end TypedSql
