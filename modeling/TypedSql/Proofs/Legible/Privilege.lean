import TypedSql.Proofs.Legible.Script

/-! Privileges and drops are not confused: the text of a grant, a revocation or a drop tells which of
them it is, and all its parts, for any names. Only a list of columns that is empty is written as if it
were missing. -/

namespace TypedSql

open Text

/-- A list with commas, or a word in the place of the list. -/
theorem Text.Legible.commasOr {α : Type} {first follow : List String} {ok : α → Prop}
    {text : α → List Char} (h : Legible first (", " :: follow) ok text (· = ·)) (w : String)
    (hfollow : Apart [", "] follow) (hf : Apart first follow) (hw : Apart [w] (first ++ follow)) :
    Legible ([w] ++ (first ++ follow)) follow (fun xs : Option (List α) => ∀ x ∈ xs.getD [], ok x)
      (fun xs => xs.elim w.toList fun xs => ", ".toList.intercalate (xs.map text)) (· = ·) := by
  have hword : Legible [w] follow (· = none)
      (fun xs : Option (List α) => xs.elim w.toList fun xs => ", ".toList.intercalate (xs.map text))
      (· = ·) := by
    refine ((word w _).of_text _ ?_).imp (fun _ hxs => hxs) fun _ _ hxs hys _ => hxs.trans hys.symm
    rintro xs rfl
    rfl
  have hlist : Legible (first ++ follow) follow
      (fun xs : Option (List α) => ∃ ys, (∀ y ∈ ys, ok y) ∧ some ys = xs)
      (fun xs => xs.elim w.toList fun xs => ", ".toList.intercalate (xs.map text)) (· = ·) :=
    (Legible.commas h hfollow hf).image some (fun _ _ => rfl) fun _ _ _ _ he => congrArg some he
  refine (hword.union hlist hw).imp ?_ fun _ _ _ _ he => he
  intro xs hxs
  cases xs with
  | none => exact .inl rfl
  | some ys => exact .inr ⟨ys, hxs, rfl⟩

namespace Privilege

/-- The privilege for other columns, if it is one that can be about columns. -/
def about (columns : Option (List Ident)) : Privilege → Privilege
  | insert _ => insert columns
  | update _ => update columns
  | references _ => references columns
  | p => p

/-- The privilege without a list of columns that is empty. -/
def normal (p : Privilege) : Privilege :=
  p.about p.columns?

/-- The privileges without their columns. -/
def kinds : List Privilege :=
  [select, delete, usage, insert none, update none, references none]

theorem columns_normal (p : Privilege) : p.normal.columns? = p.columns? := by
  cases p with
  | insert columns | update columns | references columns =>
      simp only [normal, about, columns?, Option.filter_filter, Bool.and_self]
  | _ => rfl

theorem normal_normal (p : Privilege) : p.normal.normal = p.normal := by
  rw [normal, columns_normal]
  cases p <;> rfl

theorem script_normal (p : Privilege) : p.normal.script = p.script := by
  have hkeyword : p.normal.keyword = p.keyword := by cases p <;> rfl
  rw [script, script, hkeyword, columns_normal]

/-- A list of columns that is written is not empty. -/
theorem columns_eq_some {p : Privilege} {columns : List Ident} (h : p.columns? = some columns) :
    columns.isEmpty = false := by
  cases p with
  | insert _ | update _ | references _ =>
      simpa using (Option.filter_eq_some_iff.1 h).2
  | _ => cases h

theorem spelling_script (p : Privilege) : p.script.spelling =
    p.keyword.toList ++ (Script.columns (p.columns?.getD [])).spelling := by
  rw [script, Script.spelling_text]
  cases h : p.columns? with
  | none => rfl
  | some columns =>
      rw [Option.getD_some, Script.columns, columns_eq_some h]
      rfl

/-- A privilege is made of its kind and of the columns that are written. -/
theorem normal_eq (p : Privilege) :
    p.normal = (p.about none).about (if (p.columns?.getD []).isEmpty then none
      else some (p.columns?.getD [])) := by
  have hcolumns : p.columns? =
      if (p.columns?.getD []).isEmpty then none else some (p.columns?.getD []) := by
    cases h : p.columns? with
    | none => rfl
    | some columns => rw [Option.getD_some, columns_eq_some h]; rfl
  rw [← hcolumns, normal]
  cases p <;> rfl

/-- What can follow a privilege. -/
def ends : List String := [", ", " ON "]

/-- A privilege is known by its keyword and its columns. -/
theorem legible : Legible (kinds.map keyword) ends (fun p : Privilege => p.normal = p)
    (fun p => p.script.spelling) (· = ·) := by
  have hkeyword := (Legible.keyword keyword kinds
    (by decide : Code (" (" :: ends) (kinds.map keyword))).on (about none)
  have hcolumns := (Legible.columns (by decide : Apart [" ("] ends)).on
    fun p : Privilege => p.columns?.getD []
  refine ((hkeyword.append hcolumns (Covers.refl _)).imp ?_ ?_).of_text _ ?_
  · intro p _
    refine ⟨?_, trivial⟩
    cases p <;> simp [kinds, about]
  · rintro p p' h h' ⟨hkind, hcolumns⟩
    rw [← h, ← h', normal_eq, hkind, hcolumns, ← normal_eq]
  · intro p _
    rw [spelling_script]
    cases p <;> rfl

/-- What a list of privileges can begin with, or what follows it if it is empty. -/
def starts : List String :=
  ["ALL PRIVILEGES"] ++ (kinds.map keyword ++ [" ON "])

/-- Privileges are told from the absence of a list of them. -/
theorem legible_list : Legible starts [" ON "]
    (fun ps : Option (List Privilege) => ps.map (List.map normal) = ps)
    (fun ps => (list ps).spelling) (· = ·) := by
  have hlist := Legible.commasOr legible "ALL PRIVILEGES" (by decide) (by decide) (by decide)
  refine (hlist.of_text _ ?_).imp ?_ fun _ _ _ _ he => he
  · intro ps _
    cases ps with
    | none => exact (Script.spelling_text _ _).trans (List.append_nil _)
    | some ps =>
        rw [list, Script.spelling_commas, List.map_map]
        rfl
  · intro ps hps p hp
    cases ps with
    | none => cases hp
    | some ps => exact List.map_inj_left.1 ((Option.some.inj hps).trans (List.map_id ps).symm) p hp

theorem normal_list (ps : Option (List Privilege)) :
    (ps.map (List.map normal)).map (List.map normal) = ps.map (List.map normal) := by
  cases ps with
  | none => rfl
  | some ps =>
      rw [Option.map_some, Option.map_some, List.map_map]
      exact congrArg some (List.map_congr_left fun p _ => p.normal_normal)

theorem script_list (ps : Option (List Privilege)) : list (ps.map (List.map normal)) = list ps := by
  cases ps with
  | none => rfl
  | some ps =>
      rw [Option.map_some, list, List.map_map]
      exact congrArg Script.commas (List.map_congr_left fun p _ => p.script_normal)

end Privilege

/-- Receivers are told from the public, whatever they are called. -/
theorem Script.legible_grantees {follow : List String} (hcomma : Apart [", "] follow)
    (hquote : Apart ["\""] (", " :: follow)) (hpublic : Apart ["PUBLIC"] ("\"" :: follow)) :
    Legible (["PUBLIC"] ++ (["\""] ++ follow)) follow (fun _ => True)
      (fun is => (Script.grantees is).spelling) (· = ·) := by
  have hlist := Legible.commasOr (Legible.ident hquote) "PUBLIC" hcomma
    (fun w hw v hv => hquote w hw v (List.mem_cons_of_mem _ hv)) hpublic
  refine (hlist.of_text _ ?_).imp (fun _ _ _ _ => trivial) fun _ _ _ _ he => he
  intro is _
  cases is with
  | none => exact (Script.spelling_text _ _).trans (List.append_nil _)
  | some is =>
      rw [grantees, Script.spelling_commas, List.map_map]
      rfl

/-- The kinds of objects that have privileges. -/
def ObjectKind.all : List ObjectKind :=
  [table, domain, collation, characterSet, conversion]

/-- The object of a privilege, given its kind and its name. -/
theorem ObjectKind.legible_target {follow : List String} (hf : Apart ["\"", ".\""] follow) :
    Legible [" ON "] follow (fun x : ObjectKind × Name => x.2.Whole)
      (fun x => (x.1.target x.2).spelling) (· = ·) := by
  have hkind := (Legible.keyword ObjectKind.sql all (by decide : Code [" "] (all.map ObjectKind.sql))).on
    fun x : ObjectKind × Name => x.1
  have hname := ((Name.legible hf).led " ").on fun x : ObjectKind × Name => x.2
  refine (((hkind.append hname (Covers.refl _)).led " ON ").imp ?_ ?_).of_text _ ?_
  · rintro ⟨kind, name⟩ hname
    have hkind : kind ∈ all := by cases kind <;> decide
    exact ⟨hkind, hname⟩
  · rintro ⟨kind, name⟩ ⟨kind', name'⟩ _ _ ⟨hkind, hname⟩
    exact Prod.ext hkind hname
  · rintro ⟨kind, name⟩ _
    simp only [target, Script.spelling_text]

/-- What cascades and what is restricted. -/
theorem DropBehavior.legible : Legible [" "] [";"] (fun _ => True)
    (fun b : DropBehavior => " ".toList ++ b.sql.toList) (· = ·) := by
  have hbehavior := (Legible.keyword DropBehavior.sql [cascade, restrict]
    (by decide : Code [";"] ([cascade, restrict].map DropBehavior.sql))).led " "
  refine hbehavior.imp ?_ fun _ _ _ _ he => he
  intro b _
  cases b <;> decide

theorem Grant.legible : Legible ["GRANT "] [";"] (fun g : Grant =>
    g.privileges.map (List.map Privilege.normal) = g.privileges ∧ g.object.Whole ∧ g.ext = none)
    (fun g => g.script.spelling) (· = ·) := by
  have hoption := (Legible.flag (by decide : Apart [" WITH GRANT OPTION"] [";"])).on grantOption
  have hgrantees := (((Script.legible_grantees (by decide) (by decide) (by decide)).on grantees).append
    hoption (Covers.refl _)).led " TO "
  have htarget := ((ObjectKind.legible_target (by decide)).on
    fun g : Grant => (g.objectKind, g.object)).append hgrantees (Covers.refl _)
  have hgrant := ((Privilege.legible_list.on privileges).append htarget (Covers.refl _)).led "GRANT "
  refine (hgrant.imp ?_ ?_).of_text _ ?_
  · rintro g ⟨hprivileges, hobject, -⟩
    exact ⟨hprivileges, hobject, trivial, trivial⟩
  · rintro ⟨⟩ ⟨⟩ ⟨-, -, hext⟩ ⟨-, -, hext'⟩ ⟨hprivileges, htarget, hgrantees, hoption⟩
    cases hprivileges
    cases htarget
    cases hgrantees
    cases hoption
    cases hext
    cases hext'
    rfl
  · rintro g ⟨-, -, hext⟩
    simp only [script, hext, Extension.slot, Script.spelling_text, Script.spelling_append,
      Script.spelling_flag, List.append_nil, List.append_assoc]

theorem Revoke.legible : Legible ["REVOKE "] [";"] (fun r : Revoke =>
    r.privileges.map (List.map Privilege.normal) = r.privileges ∧ r.object.Whole ∧ r.ext = none)
    (fun r => r.script.spelling) (· = ·) := by
  have hoption := (Legible.flag (by decide : Apart ["GRANT OPTION FOR "] Privilege.starts)).on
    grantOption
  have hgrantees := (((Script.legible_grantees (by decide) (by decide) (by decide)).on grantees).append
    (DropBehavior.legible.on behavior) (Covers.refl _)).led " FROM "
  have htarget := ((ObjectKind.legible_target (by decide)).on
    fun r : Revoke => (r.objectKind, r.object)).append hgrantees (Covers.refl _)
  have hprivileges := (Privilege.legible_list.on privileges).append htarget (Covers.refl _)
  have hrevoke := (hoption.append hprivileges (Covers.refl _)).led "REVOKE "
  refine (hrevoke.imp ?_ ?_).of_text _ ?_
  · rintro r ⟨hprivileges, hobject, -⟩
    exact ⟨trivial, hprivileges, hobject, trivial, trivial⟩
  · rintro ⟨⟩ ⟨⟩ ⟨-, -, hext⟩ ⟨-, -, hext'⟩ ⟨hoption, hprivileges, htarget, hgrantees, hbehavior⟩
    cases hoption
    cases hprivileges
    cases htarget
    cases hgrantees
    cases hbehavior
    cases hext
    cases hext'
    rfl
  · rintro r ⟨-, -, hext⟩
    simp only [script, hext, Extension.slot, Script.spelling_text, Script.spelling_append,
      Script.spelling_flag, Script.spelling_nil, List.append_nil, List.append_assoc]

theorem Drop.legible : Legible ["DROP "] [";"] (fun d : Drop => d.name.Whole ∧ d.ext = none)
    (fun d => d.script.spelling) (· = ·) := by
  have hname := (((Name.legible (by decide)).on name).append (DropBehavior.legible.on behavior)
    (Covers.refl _)).led " "
  have hdrop := (((Legible.keyword DropKind.sql [.schema, .table, .view, .domain]
    (by decide : Code [" "] ([.schema, .table, .view, .domain].map DropKind.sql))).on kind).append
      hname (Covers.refl _)).led "DROP "
  refine (hdrop.imp ?_ ?_).of_text _ ?_
  · rintro ⟨kind, name, behavior, ext⟩ ⟨hname, -⟩
    have hkind : kind ∈ [.schema, .table, .view, .domain] := by cases kind <;> decide
    exact ⟨hkind, hname, trivial⟩
  · rintro ⟨⟩ ⟨⟩ ⟨-, hext⟩ ⟨-, hext'⟩ ⟨hkind, hname, hbehavior⟩
    cases hkind
    cases hname
    cases hbehavior
    cases hext
    cases hext'
    rfl
  · rintro d ⟨-, hext⟩
    simp only [script, hext, Extension.slot, Script.spelling_text, Script.spelling_append,
      Script.spelling_nil, List.append_nil]

/-- The grant without lists of columns that are empty. -/
def Grant.normal (g : Grant) : Grant :=
  { g with privileges := g.privileges.map (List.map Privilege.normal) }

/-- The revocation without lists of columns that are empty. -/
def Revoke.normal (r : Revoke) : Revoke :=
  { r with privileges := r.privileges.map (List.map Privilege.normal) }

namespace Statement

/-- Grants, revocations and drops without dialect nodes. -/
def Regulates : Statement → Prop
  | grant g => g.ext = none
  | revoke r => r.ext = none
  | drop d => d.ext = none
  | _ => False

/-- The statement without lists of columns that are empty. -/
def normal : Statement → Statement
  | grant g => grant g.normal
  | revoke r => revoke r.normal
  | s => s

theorem script_normal (s : Statement) : s.normal.script = s.script := by
  cases s with
  | grant g => simp only [normal, Grant.normal, script, body, Grant.script, Privilege.script_list]
  | revoke r =>
      simp only [normal, Revoke.normal, script, body, Revoke.script, Privilege.script_list]
  | _ => rfl

theorem Regulates.bare {s : Statement} (h : s.Regulates) : ∀ site ∈ s.sites, site.Bare := by
  have hprivileges (ps : Option (List Privilege)) :
      ∀ site ∈ Privilege.sitesList ps, site.Bare := by
    intro site hsite
    obtain ⟨p, -, hp⟩ := List.mem_flatMap.1 hsite
    exact Site.bare_ident _ site hp
  refine Site.forall_bare_nest ?_
  cases s with
  | grant g =>
      have hext : g.ext = none := h
      simp only [inside, Grant.sites, hext, Site.slot, List.append_nil, List.forall_mem_append]
      exact ⟨⟨hprivileges _, Site.bare_name _⟩, Site.bare_ident _⟩
  | revoke r =>
      have hext : r.ext = none := h
      simp only [inside, Revoke.sites, hext, Site.slot, List.append_nil, List.forall_mem_append]
      exact ⟨⟨hprivileges _, Site.bare_name _⟩, Site.bare_ident _⟩
  | drop d =>
      have hext : d.ext = none := h
      simp only [inside, Drop.sites, hext, Site.slot, List.append_nil]
      exact Site.bare_name _
  | _ => exact h.elim

/-- A statement of these kinds is known by its text. -/
theorem legible : Legible (["GRANT "] ++ (["REVOKE "] ++ ["DROP "])) [";"]
    (fun s : Statement => s.Regulates ∧ s.inside.filterMap Site.flaw? = [])
    (fun s => s.script.spelling) fun s s' => s.normal = s'.normal := by
  have hspelling (s : Statement) : s.script.spelling = s.body.spelling :=
    (Script.spelling_guarded _ _).trans (List.append_nil _)
  have hgrant : Legible ["GRANT "] [";"] _ (fun s : Statement => s.script.spelling) (· = ·) :=
    Grant.legible.image grant (fun g _ => hspelling (grant g)) fun _ _ _ _ he => congrArg grant he
  have hrevoke : Legible ["REVOKE "] [";"] _ (fun s : Statement => s.script.spelling) (· = ·) :=
    Revoke.legible.image revoke (fun r _ => hspelling (revoke r))
      fun _ _ _ _ he => congrArg revoke he
  have hdrop : Legible ["DROP "] [";"] _ (fun s : Statement => s.script.spelling) (· = ·) :=
    Drop.legible.image drop (fun d _ => hspelling (drop d)) fun _ _ _ _ he => congrArg drop he
  have hall := hgrant.union (hrevoke.union hdrop (by decide)) (by decide)
  refine ((hall.on normal).imp ?_ fun _ _ _ _ he => he).of_text _ ?_
  · rintro s ⟨hs, hflaws⟩
    cases s with
    | grant g =>
        simp only [inside, Grant.sites, List.filterMap_append, List.append_eq_nil_iff] at hflaws
        have hg : g.normal.privileges.map (List.map Privilege.normal) = g.normal.privileges :=
          Privilege.normal_list _
        exact .inl ⟨g.normal, ⟨hg, Name.whole_of_flaws hflaws.1.1.2, hs⟩, rfl⟩
    | revoke r =>
        simp only [inside, Revoke.sites, List.filterMap_append, List.append_eq_nil_iff] at hflaws
        have hr : r.normal.privileges.map (List.map Privilege.normal) = r.normal.privileges :=
          Privilege.normal_list _
        exact .inr (.inl ⟨r.normal, ⟨hr, Name.whole_of_flaws hflaws.1.1.2, hs⟩, rfl⟩)
    | drop d =>
        simp only [inside, Drop.sites, List.filterMap_append, List.append_eq_nil_iff] at hflaws
        exact .inr (.inr ⟨d, ⟨Name.whole_of_flaws hflaws.1, hs⟩, rfl⟩)
    | _ => exact hs.elim
  · intro s _
    rw [script_normal]

/-- Two grants, revocations or drops without dialect nodes have the same text if and only if they are
the same, where an empty list of columns counts as none. So for any names the text tells the kind of
the statement, all privileges from a list of them, the public from receivers of any name, and the
options, kinds and behaviors. -/
theorem sql_eq_iff {r r' : Renderer} {s s' : Statement} (hs : s.Regulates) (hs' : s'.Regulates)
    {a a' : Rendered} (ha : (r.statement s).result = .ok a) (ha' : (r'.statement s').result = .ok a') :
    a.sql = a'.sql ↔ s.normal = s'.normal := by
  obtain ⟨hsql, hflaws⟩ := Tree.spelling_of_bare (t := .statement s) hs.bare ha
  obtain ⟨hsql', hflaws'⟩ := Tree.spelling_of_bare (t := .statement s') hs'.bare ha'
  rw [Tree.flaws, Tree.sites, sites, Site.flaws_nest] at hflaws hflaws'
  constructor
  · intro he
    have hspelling : s.script.spelling = s'.script.spelling :=
      hsql.symm.trans ((congrArg String.toList he).trans hsql')
    exact legible.inj ⟨hs, hflaws⟩ ⟨hs', hflaws'⟩ hspelling
  · intro he
    refine String.toList_injective ?_
    rw [hsql, hsql', Tree.script, Tree.script, ← script_normal s, he, script_normal]

/-- An empty list of columns is written as none, and a receiver called PUBLIC is not the public. -/
theorem sql_eq_iff_public :
    let r : Renderer := {}
    let s (columns grantees : Option (List Ident)) : Statement :=
      .grant { privileges := some [.update columns], object := .simple "t", objectKind := .table, grantees }
    let named := "GRANT UPDATE ON TABLE \"t\" TO \"PUBLIC\""
    let all := "GRANT UPDATE ON TABLE \"t\" TO PUBLIC"
    (∀ columns grantees, (s columns grantees).Regulates) ∧
      (r.statement (s (some []) (some ["PUBLIC"]))).result = .ok ⟨named, []⟩ ∧
      (r.statement (s none (some ["PUBLIC"]))).result = .ok ⟨named, []⟩ ∧
      (r.statement (s none none)).result = .ok ⟨all, []⟩ ∧
      (named = named ↔
        (s (some []) (some ["PUBLIC"])).normal = (s none (some ["PUBLIC"])).normal) ∧
      (named = all ↔ (s none (some ["PUBLIC"])).normal = (s none none).normal) := by
  intro r s named all
  have hs (columns grantees : Option (List Ident)) : (s columns grantees).Regulates := rfl
  have hempty : (r.statement (s (some []) (some ["PUBLIC"]))).result = .ok ⟨named, []⟩ := rfl
  have hnamed : (r.statement (s none (some ["PUBLIC"]))).result = .ok ⟨named, []⟩ := rfl
  have hall : (r.statement (s none none)).result = .ok ⟨all, []⟩ := rfl
  exact ⟨hs, hempty, hnamed, hall, sql_eq_iff (hs _ _) (hs _ _) hempty hnamed,
    sql_eq_iff (hs _ _) (hs _ _) hnamed hall⟩

end Statement

end TypedSql
