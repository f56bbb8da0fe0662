import TypedSql.Proofs.Comment.Opening
import TypedSql.Proofs.Bracket.Query
import TypedSql.Proofs.Carry

/-! Comments in expressions. An operand is written directly behind its operator, so a minus sign begins a
comment where the text of its operand begins with another one. This is the only way in which the text of
an expression can come to have a comment. -/

namespace TypedSql

open Text Script

/-- Somewhere in the node a negation has an operand whose text begins with a minus sign. -/
def Node.Merges (bound : Bool) {a : Category} (n : Node a) : Prop :=
  ∃ (place : Place .expr a) (operand : Expr),
    place.plug (Expr.unary .neg operand) = n ∧ operand.leadsMinus bound = true

/-- No negation in the node merges with its operand, if such a merge would make the mark. -/
def Node.Apart (o : Options) (mark : CommentMark) {a : Category} (n : Node a) : Prop :=
  mark = .line → ¬ n.Merges o.paramsMode

section

variable {o : Options} {mark : CommentMark}

theorem Node.Apart.part {a b : Category} (frame : Frame a b) {n : Node a}
    (h : Node.Apart o mark (frame.plug n)) : n.Apart o mark := by
  rintro hline ⟨place, operand, rfl, hleads⟩
  exact h hline ⟨.inside frame place, operand, rfl, hleads⟩

/-- A sign before an operand makes no mark where the two do not merge. -/
theorem UnaryOp.inert {op : UnaryOp} {operand : Expr}
    (hop : ∀ site ∈ op.sites, site.Standard) (hoperand : ∀ site ∈ operand.sites, site.Standard)
    (h : Node.Apart (a := .expr) o mark (.unary op operand)) (hinert : Inert o mark operand.script) :
    Inert o mark (.text op.sql :: operand.script) := by
  cases op with
  | custom text => exact (hop _ (List.mem_singleton_self _)).2.elim
  | not => exact .text (by decide) hinert
  | plus => exact .text (by decide) hinert
  | neg =>
      refine .sign rfl hinert ?_ ?_
      · intro count
        rw [Expr.script, lexemes_guarded]
        exact Expr.lexemes_ne_nil count hoperand
      · intro count hfirst hhead
        obtain rfl : mark = .line := by cases mark <;> first | rfl | cases hfirst
        rw [Expr.script, lexemes_guarded] at hhead
        exact h rfl ⟨.here, operand, rfl, (operand.head?_lexemes count).1 hhead⟩

end

mutual

theorem Expr.inert (o : Options) (mark : CommentMark) (e : Expr)
    (h : ∀ site ∈ e.sites, site.Standard) (ha : Node.Apart (a := .expr) o mark e) :
    Inert o mark e.script := by
  rw [Expr.script]
  cases e with
  | ident i =>
      rw [Expr.body]
      exact .guarded (.ident i)
  | compound segments =>
      rw [Expr.body]
      exact .guarded (.compound segments)
  | wildcard =>
      rw [Expr.body]
      exact .guarded (.text (by decide) .nil)
  | qualifiedWildcard qualifiers =>
      rw [Expr.body]
      split
      · exact .guarded (.text (by decide) .nil)
      · exact .guarded ((Inert.chain qualifiers).append (.text (by decide) (.text (by decide) .nil)))
  | binary left op right =>
      simp only [Expr.sites, Site.forall_standard_nest, List.forall_mem_append] at h
      obtain ⟨⟨hleft, hop⟩, hright⟩ := h
      rw [Expr.body]
      exact .guarded ((left.inert o mark hleft (ha.part (.binaryLeft op right))).append
        (.text (by decide) (BinaryOp.inert (fun site hsite => (hop site hsite).2)
          (right.inert o mark hright (ha.part (.binaryRight left op))))))
  | unary op operand =>
      simp only [Expr.sites, Site.forall_standard_nest, List.forall_mem_append] at h
      rw [Expr.body]
      exact .guarded (UnaryOp.inert h.1 h.2 ha
        (operand.inert o mark h.2 (ha.part (.unary op))))
  | between e negated low high =>
      simp only [Expr.sites, Site.forall_standard_nest, List.forall_mem_append] at h
      obtain ⟨⟨he, hlow⟩, hhigh⟩ := h
      rw [Expr.body]
      have hword : Calm (if negated then " NOT BETWEEN " else " BETWEEN ") := by
        cases negated <;> decide
      exact .guarded ((e.inert o mark he (ha.part (.betweenValue negated low high))).append
        (.text hword ((low.inert o mark hlow (ha.part (.betweenLow e negated high))).append
          (.text (by decide)
            (high.inert o mark hhigh (ha.part (.betweenHigh e negated low)))))))
  | caseOf operand arms otherwise =>
      simp only [Expr.sites, Site.forall_standard_nest, List.forall_mem_append] at h
      obtain ⟨⟨hoperand, harms⟩, hotherwise⟩ := h
      rw [Expr.body]
      have hparts : Inert o mark (Expr.clause " " operand ++ CaseArm.script arms
          ++ Expr.clause " ELSE " otherwise) := by
        refine (Inert.append ?_ ?_).append ?_
        · refine Expr.inert_clause o mark " " (by decide) operand hoperand ?_
          rintro e rfl
          exact ha.part (.caseOperand arms otherwise)
        · refine CaseArm.inert_list o mark arms harms ?_
          rintro ⟨condition, result⟩ harm
          obtain ⟨before, after, rfl⟩ := List.append_of_mem harm
          exact ⟨ha.part (.caseCondition operand before result after otherwise),
            ha.part (.caseResult operand before condition after otherwise)⟩
        · refine Expr.inert_clause o mark " ELSE " (by decide) otherwise hotherwise ?_
          rintro e rfl
          exact ha.part (.caseOtherwise operand arms)
      exact .guarded (.enclosed (by decide) hparts (by decide))
  | cast e type =>
      simp only [Expr.sites, Site.forall_standard_nest, List.forall_mem_append] at h
      rw [Expr.body]
      have hinside := (e.inert o mark h.1 (ha.part (.cast type))).append
        (.text (w := " AS ") (by decide) type.inert)
      exact .guarded (.enclosed (by decide) hinside (by decide))
  | collate e collation =>
      simp only [Expr.sites, Site.forall_standard_nest, List.forall_mem_append] at h
      rw [Expr.body]
      exact .guarded ((e.inert o mark h.1 (ha.part (.collate collation))).append
        (.text (by decide) collation.inert))
  | existsQuery q =>
      rw [Expr.sites, Site.forall_standard_nest] at h
      rw [Expr.body]
      exact .guarded (.enclosed (by decide) (q.inert o mark h (ha.part .existsQuery)) (by decide))
  | extract field source =>
      rw [Expr.sites, Site.forall_standard_nest] at h
      rw [Expr.body]
      have hfield : Calm field.sql := by cases field <;> decide
      have hinside := Inert.text hfield (.text (w := " FROM ") (by decide)
        (source.inert o mark h (ha.part (.extract field))))
      exact .guarded (.enclosed (by decide) hinside (by decide))
  | apply function args =>
      simp only [Expr.sites, Site.forall_standard_nest, List.forall_mem_append] at h
      rw [Expr.body]
      have hargs : Inert o mark (Script.commas (Expr.scripts args)) := by
        refine .commas (Expr.inert_list o mark args h.2 ?_)
        intro e he
        obtain ⟨before, after, rfl⟩ := List.append_of_mem he
        exact ha.part (.applyArg function before after)
      exact .guarded ((function.inert o mark h.1 (ha.part (.applyFunction args))).append
        (.enclosed (by decide) hargs (by decide)))
  | isNull e negated =>
      rw [Expr.sites, Site.forall_standard_nest] at h
      rw [Expr.body]
      have hword : Calm (if negated then " IS NOT NULL" else " IS NULL") := by
        cases negated <;> decide
      exact .guarded ((e.inert o mark h (ha.part (.isNull negated))).append (.text hword .nil))
  | inList e list negated =>
      simp only [Expr.sites, Site.forall_standard_nest, List.forall_mem_append] at h
      rw [Expr.body]
      have hword : Calm (if negated then " NOT IN (" else " IN (") := by cases negated <;> decide
      have hlist : Inert o mark (Script.commas (Expr.scripts list)) := by
        refine .commas (Expr.inert_list o mark list h.2 ?_)
        intro member hmember
        obtain ⟨before, after, rfl⟩ := List.append_of_mem hmember
        exact ha.part (.inListMember e before after negated)
      exact .guarded ((e.inert o mark h.1 (ha.part (.inListValue list negated))).append
        (.enclosed hword hlist (by decide)))
  | inQuery e q negated =>
      simp only [Expr.sites, Site.forall_standard_nest, List.forall_mem_append] at h
      rw [Expr.body]
      have hword : Calm (if negated then " NOT IN (" else " IN (") := by cases negated <;> decide
      exact .guarded ((e.inert o mark h.1 (ha.part (.inQueryValue q negated))).append
        (.enclosed hword (q.inert o mark h.2 (ha.part (.inQuery e negated))) (by decide)))
  | literal l =>
      rw [Expr.sites, Site.forall_standard_nest] at h
      rw [Expr.body]
      exact .guarded (.literal (h _ (List.mem_singleton_self _)).2)
  | paren e =>
      rw [Expr.sites, Site.forall_standard_nest] at h
      rw [Expr.body]
      exact .guarded (.enclosed (by decide) (e.inert o mark h (ha.part .paren)) (by decide))
  | subquery q =>
      rw [Expr.sites, Site.forall_standard_nest] at h
      rw [Expr.body]
      exact .guarded (.enclosed (by decide) (q.inert o mark h (ha.part .subquery)) (by decide))
  | custom node =>
      rw [Expr.body]
      exact .guarded (.custom "Expr" node)

theorem Expr.inert_list (o : Options) (mark : CommentMark) (es : List Expr)
    (h : ∀ site ∈ Expr.sitesList es, site.Standard)
    (ha : ∀ e ∈ es, Node.Apart (a := .expr) o mark e) :
    ∀ s ∈ Expr.scripts es, Inert o mark s := by
  cases es with
  | nil => exact nofun
  | cons e es =>
      rw [Expr.sitesList, List.forall_mem_append] at h
      rw [List.forall_mem_cons] at ha
      rw [Expr.scripts, List.forall_mem_cons]
      exact ⟨e.inert o mark h.1 ha.1, Expr.inert_list o mark es h.2 ha.2⟩

theorem Expr.inert_clause (o : Options) (mark : CommentMark) (lead : String) (hlead : Calm lead)
    (e : Option Expr) (h : ∀ site ∈ Expr.sitesOption e, site.Standard)
    (ha : ∀ e', e = some e' → Node.Apart (a := .expr) o mark e') :
    Inert o mark (Expr.clause lead e) := by
  cases e with
  | none => exact .nil
  | some e =>
      rw [Expr.sitesOption] at h
      exact .text hlead (e.inert o mark h (ha e rfl))

theorem CaseArm.inert_list (o : Options) (mark : CommentMark) (arms : List CaseArm)
    (h : ∀ site ∈ CaseArm.sitesList arms, site.Standard)
    (ha : ∀ arm ∈ arms, Node.Apart (a := .expr) o mark arm.condition ∧
      Node.Apart (a := .expr) o mark arm.result) :
    Inert o mark (CaseArm.script arms) := by
  cases arms with
  | nil => exact .nil
  | cons arm arms =>
      obtain ⟨condition, result⟩ := arm
      simp only [CaseArm.sitesList, List.forall_mem_append] at h
      obtain ⟨⟨hcondition, hresult⟩, harms⟩ := h
      rw [List.forall_mem_cons] at ha
      exact .text (by decide) ((condition.inert o mark hcondition ha.1.1).append
        (.text (by decide) ((result.inert o mark hresult ha.1.2).append
          (CaseArm.inert_list o mark arms harms ha.2))))

theorem Query.inert (o : Options) (mark : CommentMark) (q : Query)
    (h : ∀ site ∈ q.sites, site.Standard) (ha : Node.Apart (a := .query) o mark q) :
    Inert o mark q.script := by
  obtain ⟨ctes, select, setOps, orderBy, limit, offset, ext⟩ := q
  simp only [Query.sites, Site.forall_standard_nest, List.forall_mem_append] at h
  obtain ⟨⟨⟨⟨⟨⟨hctes, hselect⟩, hops⟩, hkeys⟩, hlimit⟩, hoffset⟩, -⟩ := h
  have hwith : Inert o mark (if ctes.isEmpty then []
      else .text "WITH " :: (Script.commas (Cte.scripts ctes) ++ [.text " "])) := by
    split
    · exact .nil
    · refine .enclosed (by decide) (.commas (Cte.inert_list o mark ctes hctes ?_)) (by decide)
      rintro ⟨name, columns, query, extension⟩ hcte
      obtain ⟨before, after, rfl⟩ := List.append_of_mem hcte
      exact ha.part (.cteQuery ⟨[], select, setOps, orderBy, limit, offset, ext⟩ before
        ⟨name, columns, query, extension⟩ after)
  have hoperations : Inert o mark (SetOp.script setOps) := by
    refine SetOp.inert_list o mark setOps hops ?_
    rintro ⟨operator, all, added, extension⟩ hop
    obtain ⟨before, after, rfl⟩ := List.append_of_mem hop
    exact ha.part (.setOpSelect ⟨ctes, select, [], orderBy, limit, offset, ext⟩ before
      ⟨operator, all, added, extension⟩ after)
  have horder : Inert o mark (if orderBy.isEmpty then []
      else .text " ORDER BY " :: Script.commas (OrderKey.scripts orderBy)) := by
    split
    · exact .nil
    · refine .text (by decide) (.commas (OrderKey.inert_list o mark orderBy hkeys ?_))
      rintro ⟨e, direction, nulls, extension⟩ hkey
      obtain ⟨before, after, rfl⟩ := List.append_of_mem hkey
      exact ha.part (.sortKey ⟨ctes, select, setOps, [], limit, offset, ext⟩ before
        ⟨e, direction, nulls, extension⟩ after)
  have hlimits : Inert o mark (Expr.clause " LIMIT " limit) := by
    refine Expr.inert_clause o mark " LIMIT " (by decide) limit hlimit ?_
    rintro e rfl
    exact ha.part (.limit ⟨ctes, select, setOps, orderBy, none, offset, ext⟩)
  have hoffsets : Inert o mark (Expr.clause " OFFSET " offset) := by
    refine Expr.inert_clause o mark " OFFSET " (by decide) offset hoffset ?_
    rintro e rfl
    exact ha.part (.offset ⟨ctes, select, setOps, orderBy, limit, none, ext⟩)
  have hfirst := select.inert o mark hselect
    (ha.part (.querySelect ⟨ctes, select, setOps, orderBy, limit, offset, ext⟩))
  have hrest := (((hoperations.append horder).append hlimits).append hoffsets).append
    (Extension.inert_slot "Query" ext)
  rw [Query.script, Query.body]
  exact .guarded (hwith.append (hfirst.append hrest))

theorem Cte.inert_list (o : Options) (mark : CommentMark) (ctes : List Cte)
    (h : ∀ site ∈ Cte.sitesList ctes, site.Standard)
    (ha : ∀ cte ∈ ctes, Node.Apart (a := .query) o mark cte.query) :
    ∀ s ∈ Cte.scripts ctes, Inert o mark s := by
  cases ctes with
  | nil => exact nofun
  | cons cte ctes =>
      obtain ⟨name, columns, query, ext⟩ := cte
      simp only [Cte.sitesList, List.cons_append, List.forall_mem_cons, List.forall_mem_append] at h
      obtain ⟨-, ⟨⟨-, hquery⟩, -⟩, hctes⟩ := h
      rw [List.forall_mem_cons] at ha
      have hinside : Inert o mark (.text " AS (" :: ([.guarded query.body] ++ [.text ")"])) :=
        .enclosed (by decide) (query.inert o mark hquery ha.1) (by decide)
      rw [Cte.scripts, List.forall_mem_cons]
      exact ⟨(Inert.ident name).append ((Inert.columns columns).append
          (hinside.append (Extension.inert_slot "CommonTableExpr" ext))),
        Cte.inert_list o mark ctes hctes ha.2⟩

theorem SetOp.inert_list (o : Options) (mark : CommentMark) (ops : List SetOp)
    (h : ∀ site ∈ SetOp.sitesList ops, site.Standard)
    (ha : ∀ op ∈ ops, Node.Apart (a := .select) o mark op.select) :
    Inert o mark (SetOp.script ops) := by
  cases ops with
  | nil => exact .nil
  | cons op ops =>
      obtain ⟨operator, all, select, ext⟩ := op
      simp only [SetOp.sitesList, List.forall_mem_append] at h
      obtain ⟨⟨hselect, -⟩, hops⟩ := h
      rw [List.forall_mem_cons] at ha
      have hoperator : Calm operator.sql := by cases operator <;> decide
      have hall : Inert o mark (if all then [.text " ALL"] else []) := by
        split
        · exact .text (by decide) .nil
        · exact .nil
      have hrest := (select.inert o mark hselect ha.1).append
        ((Extension.inert_slot "SetOp" ext).append (SetOp.inert_list o mark ops hops ha.2))
      exact .text (by decide) (.text hoperator (hall.append (.text (by decide) hrest)))

theorem OrderKey.inert_list (o : Options) (mark : CommentMark) (keys : List OrderKey)
    (h : ∀ site ∈ OrderKey.sitesList keys, site.Standard)
    (ha : ∀ key ∈ keys, Node.Apart (a := .expr) o mark key.expr) :
    ∀ s ∈ OrderKey.scripts keys, Inert o mark s := by
  cases keys with
  | nil => exact nofun
  | cons key keys =>
      obtain ⟨e, direction, nulls, ext⟩ := key
      simp only [OrderKey.sitesList, List.forall_mem_append] at h
      obtain ⟨⟨he, -⟩, hkeys⟩ := h
      rw [List.forall_mem_cons] at ha
      have hdirection : Inert o mark (direction.elim [] fun d => [.text " ", .text d.sql]) :=
        .elim direction fun d => .text (by decide) (.text (by cases d <;> decide) .nil)
      have hnulls : Inert o mark (nulls.elim [] fun n => [.text " ", .text n.sql]) :=
        .elim nulls fun n => .text (by decide) (.text (by cases n <;> decide) .nil)
      rw [OrderKey.scripts_elim, List.forall_mem_cons]
      exact ⟨(e.inert o mark he ha.1).append ((hdirection.append hnulls).append
        (Extension.inert_slot "OrderingExpr" ext)), OrderKey.inert_list o mark keys hkeys ha.2⟩

theorem Select.inert (o : Options) (mark : CommentMark) (s : Select)
    (h : ∀ site ∈ s.sites, site.Standard) (ha : Node.Apart (a := .select) o mark s) :
    Inert o mark s.script := by
  obtain ⟨items, source, filter, groupBy, having, ext⟩ := s
  simp only [Select.sites, Site.forall_standard_nest, List.forall_mem_append] at h
  obtain ⟨⟨⟨⟨⟨hitems, hsource⟩, hfilter⟩, hgroups⟩, hhaving⟩, -⟩ := h
  have hlist : Inert o mark (Script.commas (SelectItem.scripts items)) := by
    refine .commas (SelectItem.inert_list o mark items hitems ?_)
    rintro ⟨e, label⟩ hitem
    obtain ⟨before, after, rfl⟩ := List.append_of_mem hitem
    exact ha.part (.selectItem ⟨[], source, filter, groupBy, having, ext⟩ before ⟨e, label⟩ after)
  have hfrom : Inert o mark (FromClause.clause source) := by
    refine FromClause.inert_clause o mark source hsource ?_ ?_
    · rintro ⟨source, joins, extension⟩ rfl
      exact ha.part (.fromSource ⟨items, none, filter, groupBy, having, ext⟩
        ⟨source, joins, extension⟩)
    · rintro ⟨source, joins, extension⟩ rfl ⟨kind, joined, on, slot⟩ hjoin
      obtain ⟨before, after, rfl⟩ := List.append_of_mem hjoin
      exact ⟨ha.part (.joinSource ⟨items, none, filter, groupBy, having, ext⟩
          ⟨source, [], extension⟩ before ⟨kind, joined, on, slot⟩ after),
        ha.part (.joinOn ⟨items, none, filter, groupBy, having, ext⟩
          ⟨source, [], extension⟩ before ⟨kind, joined, on, slot⟩ after)⟩
  have hwhere : Inert o mark (Expr.clause " WHERE " filter) := by
    refine Expr.inert_clause o mark " WHERE " (by decide) filter hfilter ?_
    rintro e rfl
    exact ha.part (.selectFilter ⟨items, source, none, groupBy, having, ext⟩)
  have hgroupBy : Inert o mark (if groupBy.isEmpty then []
      else .text " GROUP BY " :: Script.commas (Expr.scripts groupBy)) := by
    split
    · exact .nil
    · refine .text (by decide) (.commas (Expr.inert_list o mark groupBy hgroups ?_))
      intro e he
      obtain ⟨before, after, rfl⟩ := List.append_of_mem he
      exact ha.part (.group ⟨items, source, filter, [], having, ext⟩ before after)
  have hhavings : Inert o mark (Expr.clause " HAVING " having) := by
    refine Expr.inert_clause o mark " HAVING " (by decide) having hhaving ?_
    rintro e rfl
    exact ha.part (.having ⟨items, source, filter, groupBy, none, ext⟩)
  have hparts := ((((hlist.append hfrom).append hwhere).append hgroupBy).append hhavings).append
    (Extension.inert_slot "Select" ext)
  rw [Select.script, Select.body]
  exact .guarded (.text (by decide) hparts)

theorem SelectItem.inert_list (o : Options) (mark : CommentMark) (items : List SelectItem)
    (h : ∀ site ∈ SelectItem.sitesList items, site.Standard)
    (ha : ∀ item ∈ items, Node.Apart (a := .expr) o mark item.expr) :
    ∀ s ∈ SelectItem.scripts items, Inert o mark s := by
  cases items with
  | nil => exact nofun
  | cons item items =>
      obtain ⟨e, label⟩ := item
      simp only [SelectItem.sitesList, List.forall_mem_append] at h
      obtain ⟨⟨he, -⟩, hitems⟩ := h
      rw [List.forall_mem_cons] at ha
      have hlabel : Inert o mark (label.elim [] fun a => [.text " AS ", .ident a]) :=
        .elim label fun a => .text (by decide) (.ident a)
      rw [SelectItem.scripts_elim, List.forall_mem_cons]
      exact ⟨(e.inert o mark he ha.1).append hlabel, SelectItem.inert_list o mark items hitems ha.2⟩

theorem FromClause.inert_clause (o : Options) (mark : CommentMark) (source : Option FromClause)
    (h : ∀ site ∈ FromClause.sitesOption source, site.Standard)
    (hsource : ∀ clause, source = some clause → Node.Apart (a := .source) o mark clause.source)
    (hjoins : ∀ clause, source = some clause → ∀ join ∈ clause.joins,
      Node.Apart (a := .source) o mark join.source ∧ Node.Apart (a := .expr) o mark join.on) :
    Inert o mark (FromClause.clause source) := by
  cases source with
  | none => exact .nil
  | some clause =>
      have hsource := hsource clause rfl
      have hjoins := hjoins clause rfl
      obtain ⟨source, joins, ext⟩ := clause
      simp only [FromClause.sitesOption, List.forall_mem_append] at h
      exact .text (by decide) ((source.inert o mark h.1.1 hsource).append
        ((Join.inert_list o mark joins h.1.2 hjoins).append
          (Extension.inert_slot "JoinedTable" ext)))

theorem Join.inert_list (o : Options) (mark : CommentMark) (joins : List Join)
    (h : ∀ site ∈ Join.sitesList joins, site.Standard)
    (ha : ∀ join ∈ joins, Node.Apart (a := .source) o mark join.source ∧
      Node.Apart (a := .expr) o mark join.on) :
    Inert o mark (Join.script joins) := by
  cases joins with
  | nil => exact .nil
  | cons join joins =>
      obtain ⟨kind, source, on, ext⟩ := join
      simp only [Join.sitesList, List.forall_mem_append] at h
      obtain ⟨⟨⟨⟨-, hsource⟩, hon⟩, -⟩, hjoins⟩ := h
      rw [List.forall_mem_cons] at ha
      have hrest := (on.inert o mark hon ha.1.2).append
        ((Extension.inert_slot "Join" ext).append (Join.inert_list o mark joins hjoins ha.2))
      exact .text (by decide) (kind.inert.append (.text (by decide)
        ((source.inert o mark hsource ha.1.1).append (.text (by decide) hrest))))

theorem RowSource.inert (o : Options) (mark : CommentMark) (s : RowSource)
    (h : ∀ site ∈ s.sites, site.Standard) (ha : Node.Apart (a := .source) o mark s) :
    Inert o mark s.script := by
  rw [RowSource.script]
  cases s with
  | table name =>
      rw [RowSource.body]
      exact .guarded name.inert
  | derived q label =>
      simp only [RowSource.sites, Site.forall_standard_nest, List.forall_mem_append] at h
      have hinside : Inert o mark (.text "(" :: ([.guarded q.body] ++ [.text ") AS "])) :=
        .enclosed (by decide) (q.inert o mark h.1 (ha.part (.derivedQuery label))) (by decide)
      rw [RowSource.body]
      exact .guarded (hinside.append (.ident label))
  | function e label =>
      simp only [RowSource.sites, Site.forall_standard_nest, List.forall_mem_append] at h
      have hinside : Inert o mark (.text "(" :: ([.guarded e.body] ++ [.text ") AS "])) :=
        .enclosed (by decide) (e.inert o mark h.1 (ha.part (.tableFunction label))) (by decide)
      rw [RowSource.body]
      exact .guarded (hinside.append (.ident label))
  | custom node =>
      rw [RowSource.body]
      exact .guarded (.custom "Table" node)

end

/-! ### Texts -/

theorem Text.CommentMark.Stands.append {mark : CommentMark} {found : List Lexeme}
    (h : mark.Stands found) (before after : List Lexeme) :
    mark.Stands (before ++ (found ++ after)) :=
  h.trans ⟨before, after, List.append_assoc before found after⟩

/-- A negation that merges with its operand writes two dashes. -/
theorem Node.Merges.stands {a : Category} {o : Options} {n : Node a} (h : n.Merges o.paramsMode) :
    CommentMark.line.Stands (lexemes o 0 n.script) := by
  obtain ⟨place, operand, rfl, hleads⟩ := h
  obtain ⟨pre, post, hcarried⟩ := place.carries.collect Script.tokens_append
    fun body => by rw [tokens_singleton, Step.tokens]
  have hsign (count : Nat) :
      CommentMark.line.Stands (lexemes o count (Expr.script (.unary .neg operand))) := by
    rw [Expr.script, lexemes_guarded, Expr.body, lexemes_cons, lexemes_guarded]
    exact CommentMark.stands_cons.2 (.inl ⟨rfl, (operand.head?_lexemes count).2 hleads⟩)
  have htokens := hcarried (Expr.unary .neg operand)
  rw [lexemes, htokens, Token.lexemes_append, Token.lexemes_append]
  exact (hsign _).append _ _

namespace Tree

theorem standard {r : Renderer} (hr : r.handlers = {}) {t : Tree} (hops : t.operators = [])
    (hnumerals : ∀ text, Literal.numeral text ∉ t.literals) {a : Rendered}
    (h : (t.report r).result = .ok a) : ∀ site ∈ t.sites, site.Standard := by
  have hdefects := ((result_iff_defects r hr t).1).1 ⟨a, h⟩
  have hflaws := (defects_eq_nil_iff.1 hdefects).1
  have hfree : ∀ site ∈ t.sites, site.Free fun _ => False :=
    free (by rw [hops]; exact nofun) fun text htext => hnumerals text htext
  intro site hsite
  exact ⟨List.filterMap_eq_nil_iff.1 hflaws site hsite, hfree site hsite⟩

/-- Where strings are bound or have their quotes doubled, and all operators are those of the grammar, a
reader finds no slash before a star outside of quoted tokens. It finds two dashes there if and only if
some negation stands directly before a minus sign: before another negation, or before a negative number
that is not bound. -/
theorem sql_comments (r : Renderer) (hr : r.handlers = {})
    (hescaping : r.options.escaping = .standard) (e : Expr) (hops : (expr e).operators = [])
    (hnumerals : ∀ text, Literal.numeral text ∉ (expr e).literals) (a : Rendered)
    (h : ((expr e).report r).result = .ok a) :
    ∃ found, read? a.sql = some found ∧ ¬ CommentMark.block.Stands found ∧
      (CommentMark.line.Stands found ↔
        Node.Merges (a := .expr) r.options.paramsMode e) := by
  have hstandard := standard hr hops hnumerals h
  have hunquoted := (expr e).layout.unquoted
    (by rw [← operators, hops]; exact fun _ hop => absurd hop List.not_mem_nil)
    fun text htext => absurd htext (hnumerals text)
  refine ⟨_, read?_of_ok hr (.inr hescaping) hunquoted h, ?_, ?_, Node.Merges.stands⟩
  · exact (e.inert r.options .block hstandard (fun h => by cases h) 0).stands
  · intro hstands
    refine Classical.byContradiction fun hmerges => ?_
    exact (e.inert r.options .line hstandard (fun _ => hmerges) 0).stands hstands

/-- Behind a bracket and behind an operator with its space a sign makes no comment, and dashes in
identifiers count for nothing. -/
theorem sql_comments_parentheses :
    let r : Renderer := { options := { escaping := .standard } }
    let e : Expr := .binary (.unary .neg (.paren (.unary .neg (.ident "a--"))))
      .sub (.literal (.integer (-3)))
    r.handlers = {} ∧ r.options.escaping = .standard ∧ (expr e).operators = [] ∧
      (∀ text, Literal.numeral text ∉ (expr e).literals) ∧
      ∃ a found, ((expr e).report r).result = .ok a ∧ a.sql = "-(-\"a--\") - -3" ∧
        read? a.sql = some found ∧ ¬ CommentMark.block.Stands found ∧
        ¬ CommentMark.line.Stands found ∧ ¬ Node.Merges (a := .expr) r.options.paramsMode e := by
  intro r e
  have hops : (expr e).operators = [] := by cbv
  have hliterals : (expr e).literals = [.integer (-3)] := by cbv
  have hnumerals : ∀ text, Literal.numeral text ∉ (expr e).literals := by
    rw [hliterals]
    simp
  obtain ⟨found, hread, hblock, hline⟩ := sql_comments r rfl rfl e hops hnumerals
    ⟨"-(-\"a--\") - -3", []⟩ (by cbv)
  have hplain : ¬ CommentMark.line.Stands found := by
    have hfound : read? "-(-\"a--\") - -3" = some
        ("-(-".toList.map .outside ++ .quoted '"' "a--" :: ") - -3".toList.map .outside) := by
      cbv
    rw [hfound] at hread
    cases hread
    decide
  exact ⟨rfl, rfl, hops, hnumerals, _, found, by cbv, rfl, hread, hblock, hplain,
    fun hmerges => hplain (hline.2 hmerges)⟩

/-- A negation of a negation begins a comment. -/
theorem sql_comments_negations :
    let r : Renderer := { options := { escaping := .standard } }
    let e : Expr := .unary .neg (.unary .neg (.ident "a"))
    r.handlers = {} ∧ r.options.escaping = .standard ∧ (expr e).operators = [] ∧
      (∀ text, Literal.numeral text ∉ (expr e).literals) ∧
      ∃ a found, ((expr e).report r).result = .ok a ∧ a.sql = "--\"a\"" ∧
        read? a.sql = some found ∧ CommentMark.line.Stands found := by
  intro r e
  have hops : (expr e).operators = [] := by cbv
  have hliterals : (expr e).literals = [] := by cbv
  have hnumerals : ∀ text, Literal.numeral text ∉ (expr e).literals := by
    rw [hliterals]
    exact fun text => List.not_mem_nil
  refine ⟨rfl, rfl, hops, hnumerals, ⟨"--\"a\"", []⟩,
    [.outside '-', .outside '-', .quoted '"' "a"], by cbv, rfl, by cbv, by decide⟩

end Tree

end TypedSql
