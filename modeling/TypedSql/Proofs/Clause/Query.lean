import TypedSql.Proofs.Clause

/-! The clauses of a query are written in one order, each at most once for each select, and only those
that are present. Queries that are nested inside of it stand in brackets. -/

namespace TypedSql

open Text Script

mutual

/-- No word of an expression that shows begins a clause. The ones that it has, in queries and behind
the field of `EXTRACT`, stand in brackets. -/
theorem Expr.shows (o : Options) (e : Expr) (h : ∀ site ∈ e.sites, site.Fixed) :
    Shows o [] e.script := by
  rw [Expr.script]
  cases e with
  | ident i =>
      rw [Expr.body]
      exact .guarded (.ident i)
  | compound segments =>
      rw [Expr.body]
      exact .guarded (.compound segments)
  | wildcard =>
      rw [Expr.body]
      exact .guarded (.word (by decide))
  | qualifiedWildcard qualifiers =>
      rw [Expr.body]
      split
      · exact .guarded (.word (by decide))
      · exact .guarded ((Shows.chain qualifiers).append (.text (by decide) (.word (by decide))))
  | binary left op right =>
      simp only [Expr.sites, Site.forall_fixed_nest, List.forall_mem_append] at h
      obtain ⟨⟨hleft, hop⟩, hright⟩ := h
      rw [Expr.body]
      have hoperator := (Shows.word (BinaryOp.brings hop)).cons
        (.text (w := " ") (by decide) (right.shows o hright))
      exact .guarded ((left.shows o hleft).cons (.text (by decide) hoperator))
  | unary op operand =>
      simp only [Expr.sites, Site.forall_fixed_nest, List.forall_mem_append] at h
      rw [Expr.body]
      exact .guarded (.text (UnaryOp.introduces h.1) (operand.shows o h.2))
  | between e negated low high =>
      simp only [Expr.sites, Site.forall_fixed_nest, List.forall_mem_append] at h
      obtain ⟨⟨he, hlow⟩, hhigh⟩ := h
      rw [Expr.body]
      have hword : Parts [] (if negated then " NOT BETWEEN " else " BETWEEN ") := by
        cases negated <;> decide
      have hbounds := (low.shows o hlow).cons (.text (w := " AND ") (by decide) (high.shows o hhigh))
      exact .guarded ((e.shows o he).cons (.text hword hbounds))
  | caseOf operand arms otherwise =>
      simp only [Expr.sites, Site.forall_fixed_nest, List.forall_mem_append] at h
      obtain ⟨⟨hoperand, harms⟩, hotherwise⟩ := h
      rw [Expr.body]
      have hparts := ((Expr.shows_operand o " " (by decide) operand hoperand).append
        (CaseArm.shows_list o arms harms)).append
          (Expr.shows_operand o " ELSE " (by decide) otherwise hotherwise)
      exact .guarded ((Shows.word (by decide)).cons
        (hparts.append (.word (by decide) (by decide))))
  | cast e type =>
      simp only [Expr.sites, Site.forall_fixed_nest, List.forall_mem_append] at h
      rw [Expr.body]
      have hinside := (e.shows o h.1).balanced.append
        (.text (w := " AS ") (by decide) (type.balanced o))
      exact .guarded (.enclosed (by decide) hinside)
  | collate e collation =>
      simp only [Expr.sites, Site.forall_fixed_nest, List.forall_mem_append] at h
      rw [Expr.body]
      exact .guarded ((e.shows o h.1).cons (.text (by decide) (collation.shows o)))
  | existsQuery q =>
      rw [Expr.sites, Site.forall_fixed_nest] at h
      rw [Expr.body]
      exact .guarded (.enclosed (by decide) (q.balanced o (Site.forall_free_of_fixed h)))
  | extract field source =>
      rw [Expr.sites, Site.forall_fixed_nest] at h
      rw [Expr.body]
      have hfield : BracketFree field.sql := by cases field <;> decide
      have hinside := Balanced.text hfield
        (.text (w := " FROM ") (by decide) (source.shows o h).balanced)
      exact .guarded (.enclosed (by decide) hinside)
  | apply function args =>
      simp only [Expr.sites, Site.forall_fixed_nest, List.forall_mem_append] at h
      rw [Expr.body]
      have hargs := Balanced.commas (Expr.balanced_list o args (Site.forall_free_of_fixed h.2))
      exact .guarded ((function.shows o h.1).cons (.enclosed (by decide) (by decide) hargs))
  | isNull e negated =>
      rw [Expr.sites, Site.forall_fixed_nest] at h
      rw [Expr.body]
      have hword : Brings [] (if negated then " IS NOT NULL" else " IS NULL") ∧
          Separated (if negated then " IS NOT NULL" else " IS NULL").toList := by
        cases negated <;> decide
      exact .guarded ((e.shows o h).cons (.word hword.1 hword.2))
  | inList e list negated =>
      simp only [Expr.sites, Site.forall_fixed_nest, List.forall_mem_append] at h
      rw [Expr.body]
      have hlist := Balanced.commas (Expr.balanced_list o list (Site.forall_free_of_fixed h.2))
      exact .guarded ((e.shows o h.1).cons (.member negated hlist))
  | inQuery e q negated =>
      simp only [Expr.sites, Site.forall_fixed_nest, List.forall_mem_append] at h
      rw [Expr.body]
      have hinside := q.balanced o (Site.forall_free_of_fixed h.2)
      exact .guarded ((e.shows o h.1).cons (.member negated hinside))
  | literal l =>
      rw [Expr.sites, Site.forall_fixed_nest] at h
      rw [Expr.body]
      exact .guarded (.literal (h _ (List.mem_singleton_self _)))
  | paren e =>
      rw [Expr.sites, Site.forall_fixed_nest] at h
      rw [Expr.body]
      exact .guarded (.enclosed (by decide) (e.shows o h).balanced)
  | subquery q =>
      rw [Expr.sites, Site.forall_fixed_nest] at h
      rw [Expr.body]
      exact .guarded (.enclosed (by decide) (q.balanced o (Site.forall_free_of_fixed h)))
  | custom node =>
      rw [Expr.body]
      exact .guarded (.custom "Expr" node)

theorem Expr.shows_operand (o : Options) (lead : String) (hlead : Parts [] lead)
    (e : Option Expr) (h : ∀ site ∈ Expr.sitesOption e, site.Fixed) :
    Shows.Tail o [] (Expr.clause lead e) := by
  cases e with
  | none => exact .nil
  | some e =>
      rw [Expr.sitesOption] at h
      exact .text hlead (e.shows o h)

theorem CaseArm.shows_list (o : Options) (arms : List CaseArm)
    (h : ∀ site ∈ CaseArm.sitesList arms, site.Fixed) :
    Shows.Tail o [] (CaseArm.script arms) := by
  cases arms with
  | nil => exact .nil
  | cons arm arms =>
      obtain ⟨condition, result⟩ := arm
      simp only [CaseArm.sitesList, List.forall_mem_append] at h
      obtain ⟨⟨hcondition, hresult⟩, harms⟩ := h
      have hrest := (result.shows o hresult).cons (CaseArm.shows_list o arms harms)
      exact .text (by decide) ((condition.shows o hcondition).cons (.text (by decide) hrest))

end

/-- A keyword, if the clause that it begins is present. -/
def Text.present (keyword : String) (given : Bool) : List String :=
  if given then [keyword] else []

/-- The words that begin the clauses of a select. -/
def Select.clauses (s : Select) : List String :=
  "SELECT" :: (present "FROM" s.source.isSome ++ present "WHERE" s.filter.isSome
    ++ present "GROUP" (!s.groupBy.isEmpty) ++ present "HAVING" s.having.isSome)

/-- The words that begin the clauses of a query, without those of the queries nested inside of it. -/
def Query.clauses (q : Query) : List String :=
  present "WITH" (!q.ctes.isEmpty) ++ q.select.clauses
    ++ q.setOps.flatMap (fun op => op.operator.sql :: op.select.clauses)
    ++ present "ORDER" (!q.orderBy.isEmpty) ++ present "LIMIT" q.limit.isSome
    ++ present "OFFSET" q.offset.isSome

variable (o : Options)

theorem Expr.shows_list (es : List Expr) (h : ∀ site ∈ Expr.sitesList es, site.Fixed) :
    ∀ s ∈ Expr.scripts es, Shows o [] s := by
  induction es with
  | nil => exact nofun
  | cons e es ih =>
      rw [Expr.sitesList, List.forall_mem_append] at h
      rw [Expr.scripts, List.forall_mem_cons]
      exact ⟨e.shows o h.1, ih h.2⟩

theorem Expr.shows_clause (keyword lead : String) (hlead : Parts [keyword] lead)
    (e : Option Expr) (h : ∀ site ∈ Expr.sitesOption e, site.Fixed) :
    Shows.Tail o (present keyword e.isSome) (Expr.clause lead e) := by
  cases e with
  | none => exact .nil
  | some e =>
      rw [Expr.sitesOption] at h
      exact .clause hlead (e.shows o h)

theorem RowSource.shows (s : RowSource) (h : ∀ site ∈ s.sites, site.Fixed) :
    Shows o [] s.script := by
  rw [RowSource.script]
  cases s with
  | table name =>
      rw [RowSource.body]
      exact .guarded (name.shows o)
  | derived q label =>
      simp only [RowSource.sites, Site.forall_fixed_nest, List.forall_mem_append] at h
      have hinside : Shows o [] (.text "(" :: ([.guarded q.body] ++ [.text ") AS "])) :=
        .enclosed (by decide) (q.balanced o (Site.forall_free_of_fixed h.1))
      rw [RowSource.body]
      exact .guarded (hinside.append (.ident label))
  | function e label =>
      simp only [RowSource.sites, Site.forall_fixed_nest, List.forall_mem_append] at h
      have hinside : Shows o [] (.text "(" :: ([.guarded e.body] ++ [.text ") AS "])) :=
        .enclosed (by decide) (e.shows o h.1).balanced
      rw [RowSource.body]
      exact .guarded (hinside.append (.ident label))
  | custom node =>
      rw [RowSource.body]
      exact .guarded (.custom "Table" node)

theorem Join.shows_list (joins : List Join) (h : ∀ site ∈ Join.sitesList joins, site.Fixed) :
    Shows.Tail o [] (Join.script joins) := by
  induction joins with
  | nil => exact .nil
  | cons join joins ih =>
      obtain ⟨kind, source, on, ext⟩ := join
      simp only [Join.sitesList, List.forall_mem_append] at h
      obtain ⟨⟨⟨⟨-, hsource⟩, hon⟩, -⟩, hjoins⟩ := h
      have hon := (on.shows o hon).cons ((Extension.shows_slot o "Join" ext).append (ih hjoins))
      have hsource := (source.shows o hsource).cons (.text (w := " ON ") (by decide) hon)
      exact .text (by decide) ((kind.shows o).append (.text (by decide) hsource))

theorem FromClause.shows_clause (source : Option FromClause)
    (h : ∀ site ∈ FromClause.sitesOption source, site.Fixed) :
    Shows.Tail o (present "FROM" source.isSome) (FromClause.clause source) := by
  cases source with
  | none => exact .nil
  | some clause =>
      obtain ⟨source, joins, ext⟩ := clause
      simp only [FromClause.sitesOption, List.forall_mem_append] at h
      obtain ⟨⟨hsource, hjoins⟩, -⟩ := h
      exact .clause (by decide) ((source.shows o hsource).cons
        ((Join.shows_list o joins hjoins).append (Extension.shows_slot o "JoinedTable" ext)))

theorem SelectItem.shows_list (items : List SelectItem)
    (h : ∀ site ∈ SelectItem.sitesList items, site.Fixed) :
    ∀ s ∈ SelectItem.scripts items, Shows o [] s := by
  induction items with
  | nil => exact nofun
  | cons item items ih =>
      obtain ⟨e, label⟩ := item
      simp only [SelectItem.sitesList, List.forall_mem_append] at h
      obtain ⟨⟨he, -⟩, hitems⟩ := h
      have hlabel : Shows.Tail o [] (label.elim [] fun a => [.text " AS ", .ident a]) :=
        .elim label fun a => .text (by decide) (.ident a)
      rw [SelectItem.scripts_elim, List.forall_mem_cons]
      exact ⟨(e.shows o he).cons hlabel, ih hitems⟩

theorem Select.shows (s : Select) (h : ∀ site ∈ s.sites, site.Fixed) :
    Shows o s.clauses s.script := by
  obtain ⟨items, source, filter, groupBy, having, ext⟩ := s
  simp only [Select.sites, Site.forall_fixed_nest, List.forall_mem_append] at h
  obtain ⟨⟨⟨⟨⟨hitems, hsource⟩, hfilter⟩, hgroups⟩, hhaving⟩, -⟩ := h
  have hgroupBy : Shows.Tail o (present "GROUP" (!groupBy.isEmpty)) (if groupBy.isEmpty then []
      else .text " GROUP BY " :: Script.commas (Expr.scripts groupBy)) := by
    cases groupBy with
    | nil => exact .nil
    | cons e es => exact .clause (by decide) (.commas (Expr.shows_list o (e :: es) hgroups))
  have hparts := (((((Shows.commas (SelectItem.shows_list o items hitems)).append
    (FromClause.shows_clause o source hsource)).append
      (Expr.shows_clause o "WHERE" " WHERE " (by decide) filter hfilter)).append hgroupBy).append
        (Expr.shows_clause o "HAVING" " HAVING " (by decide) having hhaving)).append_nil
          (Extension.shows_slot o "Select" ext)
  rw [Select.script, Select.body]
  exact .guarded (.clause (by decide) hparts)

theorem OrderKey.shows_list (keys : List OrderKey)
    (h : ∀ site ∈ OrderKey.sitesList keys, site.Fixed) :
    ∀ s ∈ OrderKey.scripts keys, Shows o [] s := by
  induction keys with
  | nil => exact nofun
  | cons key keys ih =>
      obtain ⟨e, direction, nulls, ext⟩ := key
      simp only [OrderKey.sitesList, List.forall_mem_append] at h
      obtain ⟨⟨he, -⟩, hkeys⟩ := h
      have hdirection : Shows.Tail o [] (direction.elim [] fun d => [.text " ", .text d.sql]) :=
        .elim direction fun d => .text (by decide) (.word (by cases d <;> decide))
      have hnulls : Shows.Tail o [] (nulls.elim [] fun n => [.text " ", .text n.sql]) :=
        .elim nulls fun n => .text (by decide) (.word (by cases n <;> decide))
      rw [OrderKey.scripts_elim, List.forall_mem_cons]
      exact ⟨(e.shows o he).cons ((hdirection.append hnulls).append
        (Extension.shows_slot o "OrderingExpr" ext)), ih hkeys⟩

theorem SetOp.shows_list (ops : List SetOp) (h : ∀ site ∈ SetOp.sitesList ops, site.Fixed) :
    Shows.Tail o (ops.flatMap fun op => op.operator.sql :: op.select.clauses)
      (SetOp.script ops) := by
  induction ops with
  | nil => exact .nil
  | cons op ops ih =>
      obtain ⟨operator, all, select, ext⟩ := op
      simp only [SetOp.sitesList, List.forall_mem_append] at h
      obtain ⟨⟨hselect, -⟩, hops⟩ := h
      have hoperator : Brings [operator.sql] operator.sql := by cases operator <;> decide
      have hall : Shows.Tail o [] (if all then [.text " ALL"] else []) := by
        split
        · exact .word (by decide) (by decide)
        · exact .nil
      have hrest := (select.shows o hselect).append
        ((Extension.shows_slot o "SetOp" ext).append (ih hops))
      have hselect := hall.append (.text (w := " ") (by decide) hrest)
      exact .text (by decide) ((Shows.word hoperator).append hselect)

theorem Cte.shows_list (ctes : List Cte) (h : ∀ site ∈ Cte.sitesList ctes, site.Fixed) :
    ∀ s ∈ Cte.scripts ctes, Shows o [] s := by
  induction ctes with
  | nil => exact nofun
  | cons cte ctes ih =>
      obtain ⟨name, columns, query, ext⟩ := cte
      simp only [Cte.sitesList, List.cons_append, List.forall_mem_cons, List.forall_mem_append] at h
      obtain ⟨-, ⟨⟨-, hquery⟩, -⟩, hctes⟩ := h
      have hinside : Shows.Tail o [] (.text " AS (" :: ([.guarded query.body] ++ [.text ")"])) :=
        .enclosed (by decide) (by decide) (query.balanced o (Site.forall_free_of_fixed hquery))
      rw [Cte.scripts, List.forall_mem_cons]
      exact ⟨(Shows.ident name).cons ((Shows.Tail.columns columns).append
        (hinside.append (Extension.shows_slot o "CommonTableExpr" ext))), ih hctes⟩

theorem Query.shows (q : Query) (h : ∀ site ∈ q.sites, site.Fixed) :
    Shows o q.clauses q.script := by
  obtain ⟨ctes, select, setOps, orderBy, limit, offset, ext⟩ := q
  simp only [Query.sites, Site.forall_fixed_nest, List.forall_mem_append] at h
  obtain ⟨⟨⟨⟨⟨⟨hctes, hselect⟩, hops⟩, hkeys⟩, hlimit⟩, hoffset⟩, -⟩ := h
  have horder : Shows.Tail o (present "ORDER" (!orderBy.isEmpty)) (if orderBy.isEmpty then []
      else .text " ORDER BY " :: Script.commas (OrderKey.scripts orderBy)) := by
    cases orderBy with
    | nil => exact .nil
    | cons key keys => exact .clause (by decide) (.commas (OrderKey.shows_list o (key :: keys) hkeys))
  have hrest := ((((SetOp.shows_list o setOps hops).append horder).append
    (Expr.shows_clause o "LIMIT" " LIMIT " (by decide) limit hlimit)).append
      (Expr.shows_clause o "OFFSET" " OFFSET " (by decide) offset hoffset)).append_nil
        (Extension.shows_slot o "Query" ext)
  have hmain := (select.shows o hselect).append hrest
  rw [Query.script, Query.body]
  simp only [Query.clauses, List.append_assoc] at hmain ⊢
  cases ctes with
  | nil => exact .guarded hmain
  | cons cte ctes =>
      have hnames := Shows.commas (Cte.shows_list o (cte :: ctes) hctes)
      have hwith := hnames.append (.text (w := " ") (by decide) hmain)
      rw [if_neg (by simp), List.cons_append, List.append_assoc]
      exact .guarded (.clause (by decide) hwith)

namespace Tree

/-- Only custom operators and numerals bring texts of their own. -/
theorem fixed {t : Tree} (hops : t.operators = [])
    (hnumerals : ∀ text, Literal.numeral text ∉ t.literals) : ∀ site ∈ t.sites, site.Fixed := by
  intro site hsite
  cases site with
  | operator text =>
      have hop : text ∈ t.operators := List.mem_filterMap.2 ⟨_, hsite, rfl⟩
      rw [hops] at hop
      cases hop
  | literal l =>
      cases l with
      | numeral text => exact hnumerals text (List.mem_filterMap.2 ⟨_, hsite, rfl⟩)
      | _ => trivial
  | _ => trivial

/-- Outside of quoted tokens and of brackets, the words of a query that begin clauses are those of its
own clauses: each clause that is present begins with its keyword, in the one order that there is, and
no keyword of a query that is nested inside shows. This needs strings that are bound or have their
quotes doubled, and neither custom operators nor numerals, since those could bring any text. -/
theorem query_clauses (r : Renderer) (hr : r.handlers = {})
    (hquotes : r.options.paramsMode = true ∨ r.options.escaping = .standard) (q : Query)
    (hops : (query q).operators = []) (hnumerals : ∀ text, Literal.numeral text ∉ (query q).literals)
    (a : Rendered) (h : (r.query q).result = .ok a) :
    ∃ found, read? a.sql = some found ∧ depth? 0 found = some 0 ∧
      clauses (shown 0 found) = q.clauses := by
  have hshows := q.shows r.options (fixed hops hnumerals)
  have hnone : ∀ op ∈ (query q).operators, QuoteFree op := by
    rw [hops]
    exact nofun
  have hunquoted := (query q).layout.unquoted hnone fun text hmem => absurd hmem (hnumerals text)
  exact ⟨_, read?_of_ok hr hquotes hunquoted h, hshows.balanced 0, hshows.clauses_shown 0⟩

/-- The clauses of the query that is nested in a `WITH` clause, in a row source and in a filter do not
show, and neither does the keyword inside of its string. -/
theorem query_clauses_nested :
    let r : Renderer := { options := { escaping := .standard } }
    let inner : Query :=
      { select := { items := [⟨.literal (.string "') FROM ("), none⟩],
                    source := some { source := .table (.simple "WHERE") },
                    groupBy := [.ident "a"] },
        offset := some (.literal (.integer 1)) }
    let q : Query :=
      { ctes := [{ name := "c", query := inner }],
        select := { items := [⟨.qualifiedWildcard ["d"], none⟩],
                    source := some { source := .derived inner "d" },
                    filter := some (.existsQuery inner) },
        setOps := [{ operator := .union, all := true, select := { items := [⟨.wildcard, none⟩] } }],
        limit := some (.literal (.integer 2)) }
    r.handlers = {} ∧ (r.options.paramsMode = true ∨ r.options.escaping = .standard) ∧
      (query q).operators = [] ∧ (∀ text, Literal.numeral text ∉ (query q).literals) ∧
      ∃ a found, (r.query q).result = .ok a ∧ read? a.sql = some found ∧ depth? 0 found = some 0 ∧
        clauses (shown 0 found) = ["WITH", "SELECT", "FROM", "WHERE", "UNION", "SELECT", "LIMIT"] := by
  intro r inner q
  have hops : (query q).operators = [] := by cbv
  have hliterals : (query q).literals = [.string "') FROM (", .integer 1, .string "') FROM (",
      .integer 1, .string "') FROM (", .integer 1, .integer 2] := by
    cbv
  have hnumerals : ∀ text, Literal.numeral text ∉ (query q).literals := by
    rw [hliterals]
    simp
  have hdefects : (query q).defects r.options.maxDepth = [] := by cbv
  have hresult := result_of_nil (r := r) rfl hdefects
  obtain ⟨found, hread, hdepth, hclauses⟩ :=
    query_clauses r rfl (.inr rfl) q hops hnumerals _ hresult
  exact ⟨rfl, .inr rfl, hops, hnumerals, _, found, hresult, hread, hdepth, hclauses⟩

end Tree

end TypedSql
