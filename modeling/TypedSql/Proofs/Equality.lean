import TypedSql.Equality
import TypedSql.Proofs.Tree

/-! Trees that compare equal are the same tree, if no float stands in them and nodes of dialects with one
identity carry one payload. So they are rendered in the same way. -/

namespace TypedSql

namespace Site

/-- What makes a comparison strict: the first tree has no float, because floats are compared as numbers,
and a node of the first with the identity of a node of the second carries its payload. -/
structure Faithful (a b : List Site) : Prop where
  not_float : ∀ x, literal (.float x) ∉ a
  payload_eq : ∀ {f g n m}, node f n ∈ a → node g m ∈ b → n.identity = m.identity →
    n.payload = m.payload

namespace Faithful

variable {a a' b b' : List Site}

theorem mono (h : Faithful a b) (ha : a' ⊆ a) (hb : b' ⊆ b) : Faithful a' b' where
  not_float x hx := h.not_float x (ha hx)
  payload_eq hn hm := h.payload_eq (ha hn) (hb hm)

theorem split (h : Faithful (a ++ a') (b ++ b')) : Faithful a b ∧ Faithful a' b' :=
  ⟨h.mono (List.subset_append_left a a') (List.subset_append_left b b'),
    h.mono (List.subset_append_right a a') (List.subset_append_right b b')⟩

theorem tail {x y : Site} (h : Faithful (x :: a) (y :: b)) : Faithful a b :=
  h.mono (List.subset_cons_self x a) (List.subset_cons_self y b)

theorem inside (h : Faithful (nest a) (nest b)) : Faithful a b where
  not_float x hx := h.not_float x (List.mem_cons_of_mem _ (List.mem_map_of_mem (f := sink 1) hx))
  payload_eq hn hm := h.payload_eq (node_mem_nest hn) (node_mem_nest hm)

/-- Lists that compare equal are the same, if their elements are. -/
theorem list {α : Type} [BEq α] {sites : α → List Site}
    (helement : ∀ {a b : α}, Faithful (sites a) (sites b) → (a == b) = true → a = b)
    {as bs : List α} (hf : Faithful (as.flatMap sites) (bs.flatMap sites))
    (h : (as == bs) = true) : as = bs := by
  induction as generalizing bs with
  | nil =>
      cases bs with
      | nil => rfl
      | cons b bs => cases h
  | cons a as ih =>
      cases bs with
      | nil => cases h
      | cons b bs =>
          have hparts : (a == b && as == bs) = true := h
          rw [Bool.and_eq_true] at hparts
          rw [List.flatMap_cons, List.flatMap_cons] at hf
          rw [helement hf.split.1 hparts.1, ih hf.split.2 hparts.2]

/-- Optional parts that compare equal are the same, if the parts are. -/
theorem option {α : Type} [BEq α] {sites : Option α → List Site}
    (hpart : ∀ {a b : α}, Faithful (sites (some a)) (sites (some b)) → (a == b) = true → a = b)
    {x y : Option α} (hf : Faithful (sites x) (sites y)) (h : (x == y) = true) : x = y := by
  cases x with
  | none =>
      cases y with
      | none => rfl
      | some b => cases h
  | some a =>
      cases y with
      | none => cases h
      | some b => rw [hpart hf h]

end Faithful

end Site

open Site (Faithful)

/-! ### Literals, nodes and types -/

theorem Literal.eq_of_same {a b : Literal} (hfloat : ∀ x, a ≠ .float x) (h : (a == b) = true) :
    a = b := by
  cases a with
  | float x => exact absurd rfl (hfloat x)
  | null =>
      cases b with
      | null => rfl
      | _ => cases h
  | bool v =>
      cases b with
      | bool v' => rw [eq_of_beq (show (v == v') = true from h)]
      | _ => cases h
  | string s =>
      cases b with
      | string s' => rw [eq_of_beq (show (s == s') = true from h)]
      | _ => cases h
  | integer n =>
      cases b with
      | integer n' => rw [eq_of_beq (show (n == n') = true from h)]
      | _ => cases h
  | numeral text =>
      cases b with
      | numeral text' => rw [eq_of_beq (show (text == text') = true from h)]
      | _ => cases h

theorem Literal.eq_of_same_site {a b : Literal} (hf : Faithful [.literal a] [.literal b])
    (h : (a == b) = true) : a = b := by
  refine a.eq_of_same ?_ h
  rintro x rfl
  exact hf.not_float x (List.mem_singleton_self _)

/-- The identity of a node stands for its payload. -/
theorem Extension.eq_of_same {f g : String} {n m : Extension}
    (hf : Faithful [.node f n] [.node g m]) (h : (n == m) = true) : n = m := by
  obtain ⟨kind, identity, payload⟩ := n
  obtain ⟨kind', identity', payload'⟩ := m
  have hparts : (kind == kind' && identity == identity') = true := h
  rw [Bool.and_eq_true, beq_iff_eq, beq_iff_eq] at hparts
  obtain ⟨rfl, rfl⟩ := hparts
  have hpayload : payload = payload' :=
    hf.payload_eq (List.mem_singleton_self _) (List.mem_singleton_self _) rfl
  rw [hpayload]

theorem Extension.eq_of_same_slot {f : String} {x y : Option Extension}
    (hf : Faithful (Site.slot f x) (Site.slot f y)) (h : (x == y) = true) : x = y :=
  hf.option Extension.eq_of_same h

theorem DataType.eq_of_same {a b : DataType} (hf : Faithful a.sites b.sites)
    (h : a.same b = true) : a = b := by
  revert hf h
  fun_cases DataType.same a b with
  | case16 n m =>
      intro hf h
      rw [Extension.eq_of_same hf h]
  | case17 =>
      intro _ h
      cases h
  | _ => simp_all

theorem JoinKind.eq_of_same {a b : JoinKind} (hf : Faithful a.sites b.sites)
    (h : a.same b = true) : a = b := by
  revert hf h
  fun_cases JoinKind.same a b with
  | case5 n m =>
      intro hf h
      rw [Extension.eq_of_same hf h]
  | case6 =>
      intro _ h
      cases h
  | _ => exact fun _ _ => rfl

/-! ### Expressions and queries -/

/-- Expressions that compare equal are built by the same constructor. -/
theorem Expr.ctorIdx_eq_of_same {a b : Expr} (h : a.same b = true) : a.ctorIdx = b.ctorIdx := by
  revert h
  fun_cases Expr.same a b with
  | case21 =>
      intro h
      cases h
  | _ => exact fun _ => rfl

theorem RowSource.ctorIdx_eq_of_same {a b : RowSource} (h : a.same b = true) :
    a.ctorIdx = b.ctorIdx := by
  revert h
  fun_cases RowSource.same a b with
  | case5 =>
      intro h
      cases h
  | _ => exact fun _ => rfl

-- The recursion is on the first tree. Its constructor decides that of the second one, so of the pairs of
-- constructors only the equal ones are left.
mutual

theorem Expr.eq_of_same {a b : Expr} (hf : Faithful a.sites b.sites) (h : a.same b = true) :
    a = b := by
  have hctor := Expr.ctorIdx_eq_of_same h
  cases a with
  | ident i =>
      cases b with
      | ident j =>
          rw [Expr.same, beq_iff_eq] at h
          rw [h]
      | _ => cases hctor
  | compound segments =>
      cases b with
      | compound segments' =>
          rw [Expr.same, beq_iff_eq] at h
          rw [h]
      | _ => cases hctor
  | wildcard =>
      cases b with
      | wildcard => rfl
      | _ => cases hctor
  | qualifiedWildcard qualifiers =>
      cases b with
      | qualifiedWildcard qualifiers' =>
          rw [Expr.same, beq_iff_eq] at h
          rw [h]
      | _ => cases hctor
  | binary left op right =>
      cases b with
      | binary left' op' right' =>
          simp only [Expr.same, Bool.and_eq_true, beq_iff_eq] at h
          simp only [Expr.sites] at hf
          obtain ⟨hleft, hright⟩ := hf.inside.split
          rw [left.eq_of_same hleft.split.1 h.1.1, h.1.2, right.eq_of_same hright h.2]
      | _ => cases hctor
  | unary op operand =>
      cases b with
      | unary op' operand' =>
          simp only [Expr.same, Bool.and_eq_true, beq_iff_eq] at h
          simp only [Expr.sites] at hf
          rw [h.1, operand.eq_of_same hf.inside.split.2 h.2]
      | _ => cases hctor
  | between e negated low high =>
      cases b with
      | between e' negated' low' high' =>
          simp only [Expr.same, Bool.and_eq_true, beq_iff_eq] at h
          simp only [Expr.sites] at hf
          obtain ⟨hf, hhigh⟩ := hf.inside.split
          obtain ⟨he, hlow⟩ := hf.split
          rw [e.eq_of_same he h.1.1.1, h.1.1.2, low.eq_of_same hlow h.1.2,
            high.eq_of_same hhigh h.2]
      | _ => cases hctor
  | caseOf operand arms otherwise =>
      cases b with
      | caseOf operand' arms' otherwise' =>
          simp only [Expr.same, Bool.and_eq_true] at h
          simp only [Expr.sites] at hf
          obtain ⟨hf, hotherwise⟩ := hf.inside.split
          obtain ⟨hoperand, harms⟩ := hf.split
          rw [Expr.eq_of_same_option hoperand h.1.1, CaseArm.eq_of_same_list harms h.1.2,
            Expr.eq_of_same_option hotherwise h.2]
      | _ => cases hctor
  | cast e type =>
      cases b with
      | cast e' type' =>
          rw [Expr.same, Bool.and_eq_true] at h
          simp only [Expr.sites] at hf
          obtain ⟨he, htype⟩ := hf.inside.split
          rw [e.eq_of_same he h.1, type.eq_of_same htype h.2]
      | _ => cases hctor
  | collate e collation =>
      cases b with
      | collate e' collation' =>
          simp only [Expr.same, Bool.and_eq_true, beq_iff_eq] at h
          simp only [Expr.sites] at hf
          rw [e.eq_of_same hf.inside.split.1 h.1, h.2]
      | _ => cases hctor
  | existsQuery q =>
      cases b with
      | existsQuery q' =>
          rw [Expr.same] at h
          simp only [Expr.sites] at hf
          rw [q.eq_of_same hf.inside h]
      | _ => cases hctor
  | extract field source =>
      cases b with
      | extract field' source' =>
          simp only [Expr.same, Bool.and_eq_true, beq_iff_eq] at h
          simp only [Expr.sites] at hf
          rw [h.1, source.eq_of_same hf.inside h.2]
      | _ => cases hctor
  | apply function args =>
      cases b with
      | apply function' args' =>
          rw [Expr.same, Bool.and_eq_true] at h
          simp only [Expr.sites] at hf
          obtain ⟨hfunction, hargs⟩ := hf.inside.split
          rw [function.eq_of_same hfunction h.1, Expr.eq_of_same_list hargs h.2]
      | _ => cases hctor
  | isNull e negated =>
      cases b with
      | isNull e' negated' =>
          simp only [Expr.same, Bool.and_eq_true, beq_iff_eq] at h
          simp only [Expr.sites] at hf
          rw [e.eq_of_same hf.inside h.1, h.2]
      | _ => cases hctor
  | inList e list negated =>
      cases b with
      | inList e' list' negated' =>
          simp only [Expr.same, Bool.and_eq_true, beq_iff_eq] at h
          simp only [Expr.sites] at hf
          obtain ⟨he, hlist⟩ := hf.inside.split
          rw [e.eq_of_same he h.1.1, Expr.eq_of_same_list hlist h.1.2, h.2]
      | _ => cases hctor
  | inQuery e q negated =>
      cases b with
      | inQuery e' q' negated' =>
          simp only [Expr.same, Bool.and_eq_true, beq_iff_eq] at h
          simp only [Expr.sites] at hf
          obtain ⟨he, hq⟩ := hf.inside.split
          rw [e.eq_of_same he h.1.1, q.eq_of_same hq h.1.2, h.2]
      | _ => cases hctor
  | literal l =>
      cases b with
      | literal l' =>
          rw [Expr.same] at h
          simp only [Expr.sites] at hf
          rw [Literal.eq_of_same_site hf.inside h]
      | _ => cases hctor
  | paren e =>
      cases b with
      | paren e' =>
          rw [Expr.same] at h
          simp only [Expr.sites] at hf
          rw [e.eq_of_same hf.inside h]
      | _ => cases hctor
  | subquery q =>
      cases b with
      | subquery q' =>
          rw [Expr.same] at h
          simp only [Expr.sites] at hf
          rw [q.eq_of_same hf.inside h]
      | _ => cases hctor
  | custom node =>
      cases b with
      | custom node' =>
          rw [Expr.same] at h
          simp only [Expr.sites] at hf
          rw [Extension.eq_of_same hf.inside h]
      | _ => cases hctor
termination_by structural a

theorem Expr.eq_of_same_list {as bs : List Expr}
    (hf : Faithful (Expr.sitesList as) (Expr.sitesList bs)) (h : Expr.sameList as bs = true) :
    as = bs := by
  cases as with
  | nil =>
      cases bs with
      | nil => rfl
      | cons b bs => simp [Expr.sameList] at h
  | cons a as =>
      cases bs with
      | nil => simp [Expr.sameList] at h
      | cons b bs =>
          rw [Expr.sameList, Bool.and_eq_true] at h
          simp only [Expr.sitesList] at hf
          rw [a.eq_of_same hf.split.1 h.1, Expr.eq_of_same_list hf.split.2 h.2]
termination_by structural as

theorem Expr.eq_of_same_option {x y : Option Expr}
    (hf : Faithful (Expr.sitesOption x) (Expr.sitesOption y)) (h : Expr.sameOption x y = true) :
    x = y := by
  cases x with
  | none =>
      cases y with
      | none => rfl
      | some b => simp [Expr.sameOption] at h
  | some a =>
      cases y with
      | none => simp [Expr.sameOption] at h
      | some b =>
          rw [Expr.sameOption] at h
          simp only [Expr.sitesOption] at hf
          rw [a.eq_of_same hf h]
termination_by structural x

theorem CaseArm.eq_of_same_list {as bs : List CaseArm}
    (hf : Faithful (CaseArm.sitesList as) (CaseArm.sitesList bs))
    (h : CaseArm.sameList as bs = true) : as = bs := by
  cases as with
  | nil =>
      cases bs with
      | nil => rfl
      | cons b bs => simp [CaseArm.sameList] at h
  | cons a as =>
      cases bs with
      | nil => simp [CaseArm.sameList] at h
      | cons b bs =>
          obtain ⟨condition, result⟩ := a
          obtain ⟨condition', result'⟩ := b
          simp only [CaseArm.sameList, Bool.and_eq_true] at h
          simp only [CaseArm.sitesList] at hf
          obtain ⟨harm, hrest⟩ := hf.split
          rw [condition.eq_of_same harm.split.1 h.1.1, result.eq_of_same harm.split.2 h.1.2,
            CaseArm.eq_of_same_list hrest h.2]
termination_by structural as

theorem Query.eq_of_same {a b : Query} (hf : Faithful a.sites b.sites) (h : a.same b = true) :
    a = b := by
  obtain ⟨ctes, select, setOps, orderBy, limit, offset, ext⟩ := a
  obtain ⟨ctes', select', setOps', orderBy', limit', offset', ext'⟩ := b
  simp only [Query.same, Bool.and_eq_true] at h
  simp only [Query.sites] at hf
  obtain ⟨⟨⟨⟨⟨⟨hctes, hselect⟩, hops⟩, hkeys⟩, hlimit⟩, hoffset⟩, hext⟩ := h
  obtain ⟨hf, hfext⟩ := hf.inside.split
  obtain ⟨hf, hfoffset⟩ := hf.split
  obtain ⟨hf, hflimit⟩ := hf.split
  obtain ⟨hf, hfkeys⟩ := hf.split
  obtain ⟨hf, hfops⟩ := hf.split
  obtain ⟨hfctes, hfselect⟩ := hf.split
  rw [Cte.eq_of_same_list hfctes hctes, select.eq_of_same hfselect hselect,
    SetOp.eq_of_same_list hfops hops, OrderKey.eq_of_same_list hfkeys hkeys,
    Expr.eq_of_same_option hflimit hlimit, Expr.eq_of_same_option hfoffset hoffset,
    Extension.eq_of_same_slot hfext hext]
termination_by structural a

theorem Cte.eq_of_same_list {as bs : List Cte}
    (hf : Faithful (Cte.sitesList as) (Cte.sitesList bs)) (h : Cte.sameList as bs = true) :
    as = bs := by
  cases as with
  | nil =>
      cases bs with
      | nil => rfl
      | cons b bs => simp [Cte.sameList] at h
  | cons a as =>
      cases bs with
      | nil => simp [Cte.sameList] at h
      | cons b bs =>
          obtain ⟨name, columns, query, ext⟩ := a
          obtain ⟨name', columns', query', ext'⟩ := b
          simp only [Cte.sameList, Bool.and_eq_true] at h
          simp only [Cte.sitesList] at hf
          obtain ⟨⟨⟨⟨hname, hcolumns⟩, hquery⟩, hext⟩, hctes⟩ := h
          obtain ⟨hf, hfctes⟩ := hf.split
          obtain ⟨hf, hfext⟩ := hf.split
          rw [eq_of_beq hname, eq_of_beq hcolumns, query.eq_of_same hf.split.2 hquery,
            Extension.eq_of_same_slot hfext hext, Cte.eq_of_same_list hfctes hctes]
termination_by structural as

theorem SetOp.eq_of_same_list {as bs : List SetOp}
    (hf : Faithful (SetOp.sitesList as) (SetOp.sitesList bs)) (h : SetOp.sameList as bs = true) :
    as = bs := by
  cases as with
  | nil =>
      cases bs with
      | nil => rfl
      | cons b bs => simp [SetOp.sameList] at h
  | cons a as =>
      cases bs with
      | nil => simp [SetOp.sameList] at h
      | cons b bs =>
          obtain ⟨operator, all, select, ext⟩ := a
          obtain ⟨operator', all', select', ext'⟩ := b
          simp only [SetOp.sameList, Bool.and_eq_true] at h
          simp only [SetOp.sitesList] at hf
          obtain ⟨⟨⟨⟨hoperator, hall⟩, hselect⟩, hext⟩, hops⟩ := h
          obtain ⟨hf, hfops⟩ := hf.split
          rw [eq_of_beq hoperator, eq_of_beq hall, select.eq_of_same hf.split.1 hselect,
            Extension.eq_of_same_slot hf.split.2 hext, SetOp.eq_of_same_list hfops hops]
termination_by structural as

theorem OrderKey.eq_of_same_list {as bs : List OrderKey}
    (hf : Faithful (OrderKey.sitesList as) (OrderKey.sitesList bs))
    (h : OrderKey.sameList as bs = true) : as = bs := by
  cases as with
  | nil =>
      cases bs with
      | nil => rfl
      | cons b bs => simp [OrderKey.sameList] at h
  | cons a as =>
      cases bs with
      | nil => simp [OrderKey.sameList] at h
      | cons b bs =>
          obtain ⟨e, direction, nulls, ext⟩ := a
          obtain ⟨e', direction', nulls', ext'⟩ := b
          simp only [OrderKey.sameList, Bool.and_eq_true] at h
          simp only [OrderKey.sitesList] at hf
          obtain ⟨⟨⟨⟨he, hdirection⟩, hnulls⟩, hext⟩, hkeys⟩ := h
          obtain ⟨hf, hfkeys⟩ := hf.split
          rw [e.eq_of_same hf.split.1 he, eq_of_beq hdirection, eq_of_beq hnulls,
            Extension.eq_of_same_slot hf.split.2 hext, OrderKey.eq_of_same_list hfkeys hkeys]
termination_by structural as

theorem Select.eq_of_same {a b : Select} (hf : Faithful a.sites b.sites) (h : a.same b = true) :
    a = b := by
  obtain ⟨items, source, filter, groupBy, having, ext⟩ := a
  obtain ⟨items', source', filter', groupBy', having', ext'⟩ := b
  simp only [Select.same, Bool.and_eq_true] at h
  simp only [Select.sites] at hf
  obtain ⟨⟨⟨⟨⟨hitems, hsource⟩, hfilter⟩, hgroups⟩, hhaving⟩, hext⟩ := h
  obtain ⟨hf, hfext⟩ := hf.inside.split
  obtain ⟨hf, hfhaving⟩ := hf.split
  obtain ⟨hf, hfgroups⟩ := hf.split
  obtain ⟨hf, hffilter⟩ := hf.split
  obtain ⟨hfitems, hfsource⟩ := hf.split
  rw [SelectItem.eq_of_same_list hfitems hitems, FromClause.eq_of_same_option hfsource hsource,
    Expr.eq_of_same_option hffilter hfilter, Expr.eq_of_same_list hfgroups hgroups,
    Expr.eq_of_same_option hfhaving hhaving, Extension.eq_of_same_slot hfext hext]
termination_by structural a

theorem SelectItem.eq_of_same_list {as bs : List SelectItem}
    (hf : Faithful (SelectItem.sitesList as) (SelectItem.sitesList bs))
    (h : SelectItem.sameList as bs = true) : as = bs := by
  cases as with
  | nil =>
      cases bs with
      | nil => rfl
      | cons b bs => simp [SelectItem.sameList] at h
  | cons a as =>
      cases bs with
      | nil => simp [SelectItem.sameList] at h
      | cons b bs =>
          obtain ⟨e, label⟩ := a
          obtain ⟨e', label'⟩ := b
          simp only [SelectItem.sameList, Bool.and_eq_true] at h
          simp only [SelectItem.sitesList] at hf
          obtain ⟨⟨he, hlabel⟩, hitems⟩ := h
          obtain ⟨hf, hfitems⟩ := hf.split
          rw [e.eq_of_same hf.split.1 he, eq_of_beq hlabel,
            SelectItem.eq_of_same_list hfitems hitems]
termination_by structural as

theorem FromClause.eq_of_same_option {x y : Option FromClause}
    (hf : Faithful (FromClause.sitesOption x) (FromClause.sitesOption y))
    (h : FromClause.sameOption x y = true) : x = y := by
  cases x with
  | none =>
      cases y with
      | none => rfl
      | some b => simp [FromClause.sameOption] at h
  | some a =>
      cases y with
      | none => simp [FromClause.sameOption] at h
      | some b =>
          obtain ⟨source, joins, ext⟩ := a
          obtain ⟨source', joins', ext'⟩ := b
          simp only [FromClause.sameOption, Bool.and_eq_true] at h
          simp only [FromClause.sitesOption] at hf
          obtain ⟨⟨hsource, hjoins⟩, hext⟩ := h
          obtain ⟨hf, hfext⟩ := hf.split
          rw [source.eq_of_same hf.split.1 hsource, Join.eq_of_same_list hf.split.2 hjoins,
            Extension.eq_of_same_slot hfext hext]
termination_by structural x

theorem Join.eq_of_same_list {as bs : List Join}
    (hf : Faithful (Join.sitesList as) (Join.sitesList bs)) (h : Join.sameList as bs = true) :
    as = bs := by
  cases as with
  | nil =>
      cases bs with
      | nil => rfl
      | cons b bs => simp [Join.sameList] at h
  | cons a as =>
      cases bs with
      | nil => simp [Join.sameList] at h
      | cons b bs =>
          obtain ⟨kind, source, on, ext⟩ := a
          obtain ⟨kind', source', on', ext'⟩ := b
          simp only [Join.sameList, Bool.and_eq_true] at h
          simp only [Join.sitesList] at hf
          obtain ⟨⟨⟨⟨hkind, hsource⟩, hon⟩, hext⟩, hjoins⟩ := h
          obtain ⟨hf, hfjoins⟩ := hf.split
          obtain ⟨hf, hfext⟩ := hf.split
          obtain ⟨hf, hfon⟩ := hf.split
          rw [kind.eq_of_same hf.split.1 hkind, source.eq_of_same hf.split.2 hsource,
            on.eq_of_same hfon hon, Extension.eq_of_same_slot hfext hext,
            Join.eq_of_same_list hfjoins hjoins]
termination_by structural as

theorem RowSource.eq_of_same {a b : RowSource} (hf : Faithful a.sites b.sites)
    (h : a.same b = true) : a = b := by
  have hctor := RowSource.ctorIdx_eq_of_same h
  cases a with
  | table name =>
      cases b with
      | table name' =>
          rw [RowSource.same, beq_iff_eq] at h
          rw [h]
      | _ => cases hctor
  | derived q label =>
      cases b with
      | derived q' label' =>
          simp only [RowSource.same, Bool.and_eq_true, beq_iff_eq] at h
          simp only [RowSource.sites] at hf
          rw [q.eq_of_same hf.inside.split.1 h.1, h.2]
      | _ => cases hctor
  | function e label =>
      cases b with
      | function e' label' =>
          simp only [RowSource.same, Bool.and_eq_true, beq_iff_eq] at h
          simp only [RowSource.sites] at hf
          rw [e.eq_of_same hf.inside.split.1 h.1, h.2]
      | _ => cases hctor
  | custom node =>
      cases b with
      | custom node' =>
          rw [RowSource.same] at h
          simp only [RowSource.sites] at hf
          rw [Extension.eq_of_same hf.inside h]
      | _ => cases hctor
termination_by structural a

end

end TypedSql
