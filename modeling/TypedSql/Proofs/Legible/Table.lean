import TypedSql.Proofs.Legible.Script

/-! The text of a table tells its definition. The parts of a column stand one behind the other without
brackets, and most of them may be missing, so for each part it matters which words can follow it. -/

namespace TypedSql

open Text

/-! ### What belongs to no dialect -/

def ColumnType.Bare : ColumnType → Prop
  | type t => t.Bare
  | domain _ => True

/-- The default is written with keywords. -/
def DefaultValue.Bare : DefaultValue → Prop
  | literal _ => False
  | _ => True

def ColumnRule.Bare : ColumnRule → Prop
  | notNull => True
  | unique u => u.ext = none
  | references r => r.ext = none
  | check _ => False
  | custom _ => False

def TableRule.Bare : TableRule → Prop
  | unique u => u.ext = none
  | references r => r.ext = none
  | check _ => False
  | custom _ => False

structure Constraint.Bare {Rule : Type} (rule : Rule → Prop) (c : Constraint Rule) : Prop where
  rule : rule c.rule
  checkTime : ∀ t ∈ c.checkTime, t.ext = none
  ext : c.ext = none

structure Column.Bare (c : Column) : Prop where
  type : c.type.Bare
  default : ∀ d ∈ c.default, d.Bare
  constraints : ∀ k ∈ c.constraints, k.Bare ColumnRule.Bare
  ext : c.ext = none

/-- The table has no dialect nodes, no checks and no literals as defaults. -/
structure TableDef.Bare (d : TableDef) : Prop where
  columns : ∀ c ∈ d.columns, c.Bare
  constraints : ∀ k ∈ d.constraints, k.Bare TableRule.Bare
  ext : d.ext = none

/-! ### Sites -/

theorem Unique.forall_bare {u : Unique} (h : u.ext = none) : ∀ site ∈ u.sites, site.Bare := by
  rw [sites, h, Site.slot, List.append_nil]
  exact Site.bare_ident _

theorem Reference.forall_bare {r : Reference} (h : r.ext = none) :
    ∀ site ∈ r.sites, site.Bare := by
  simp only [sites, h, Site.slot, List.append_nil, List.forall_mem_append]
  exact ⟨⟨Site.bare_ident _, Site.bare_name _⟩, Site.bare_ident _⟩

theorem ColumnRule.Bare.forall_bare {k : ColumnRule} (h : k.Bare) : ∀ site ∈ k.sites, site.Bare := by
  cases k with
  | notNull => exact List.forall_mem_nil _
  | unique u => exact Unique.forall_bare h
  | references r => exact Reference.forall_bare h
  | check condition => exact h.elim
  | custom node => exact h.elim

theorem TableRule.Bare.forall_bare {k : TableRule} (h : k.Bare) : ∀ site ∈ k.sites, site.Bare := by
  cases k with
  | unique u => exact Unique.forall_bare h
  | references r => exact Reference.forall_bare h
  | check condition => exact h.elim
  | custom node => exact h.elim

theorem Constraint.Bare.forall_bare {Rule : Type} {ok : Rule → Prop} {rule : Rule → List Site}
    {c : Constraint Rule} (h : c.Bare ok) (hrule : ∀ k, ok k → ∀ site ∈ rule k, site.Bare) :
    ∀ site ∈ c.sitesWith rule, site.Bare := by
  have htime : CheckTime.sitesOption c.checkTime = [] := by
    cases ht : c.checkTime with
    | none => rfl
    | some t => rw [CheckTime.sitesOption, h.checkTime t ht, Site.slot]
  simp only [sitesWith, htime, h.ext, Site.slot, List.append_nil, List.forall_mem_append]
  exact ⟨Site.bare_ident _, hrule c.rule h.rule⟩

theorem DataType.Bare.forall_bare {t : DataType} (h : t.Bare) : ∀ site ∈ t.sites, site.Bare := by
  have hscaled (keyword : String) (p s : Option Nat) :
      ∀ site ∈ scaledSites keyword p s, site.Bare := by
    cases p <;> cases s <;> simp [scaledSites, Site.Bare]
  cases t with
  | numeric p s => exact hscaled _ p s
  | decimal p s => exact hscaled _ p s
  | custom node => exact h.elim
  | _ => exact List.forall_mem_nil _

theorem Column.Bare.forall_bare {c : Column} (h : c.Bare) : ∀ site ∈ c.sites, site.Bare := by
  have htype : ∀ site ∈ c.type.sites, site.Bare := by
    have hbare := h.type
    cases ht : c.type with
    | type t =>
        rw [ht] at hbare
        exact DataType.Bare.forall_bare hbare
    | domain name => exact Site.bare_name name
  have hdefault : DefaultValue.sitesOption c.default = [] := by
    cases hd : c.default with
    | none => rfl
    | some d =>
        have hbare := h.default d hd
        cases d with
        | literal l => exact hbare.elim
        | _ => rfl
  have hcollation : ∀ site ∈ Name.sitesOption c.collation, site.Bare := by
    cases c.collation with
    | none => exact List.forall_mem_nil _
    | some name => exact Site.bare_name name
  simp only [sites, hdefault, h.ext, Site.slot, List.append_nil, List.forall_mem_append,
    List.forall_mem_cons]
  exact ⟨⟨⟨trivial, htype⟩, List.forall_mem_flatMap.2 fun k hk =>
    (h.constraints k hk).forall_bare fun _ => ColumnRule.Bare.forall_bare⟩, hcollation⟩

/-! ### Words -/

/-- What a constraint without a name can begin with. -/
def ruleWords : List String :=
  ["NOT NULL", "PRIMARY KEY", "UNIQUE", "FOREIGN KEY (", "REFERENCES "]

def constraintWords : List String :=
  ["CONSTRAINT "] ++ ruleWords

/-- What can follow a column. -/
def columnEnds : List String :=
  [", ", ")"]

/-- What can follow a constraint. -/
def constraintEnds : List String :=
  constraintWords.map (" " ++ ·) ++ ([" COLLATE "] ++ columnEnds)

/-- What can follow the rule of a constraint. -/
def ruleEnds : List String :=
  [" INITIALLY "] ++ constraintEnds

/-! ### Parts of a column -/

theorem Text.Legible.precision {follow : List String} (hf : Apart ["("] follow) :
    Legible (["("] ++ follow) follow (fun _ => True) (fun p => (Script.precision p).spelling)
      (· = ·) := by
  have hnumber := ((Legible.number (by decide : Apart digits [")"])).ended ")" (Covers.refl _)
    follow).led "("
  refine ((hnumber.option hf).of_text _ ?_).imp (fun _ _ _ _ => trivial) fun _ _ _ _ he => he
  intro p _
  cases p with
  | none => rfl
  | some p =>
      rw [Script.precision, Script.spelling_text, Script.spelling_nil, List.append_nil,
        Option.elim_some, ← String.toList_append, ← String.toList_append, ← String.append_assoc]
      rfl

namespace DefaultValue

/-- The keyword of a default. A literal has none. -/
def keyword : DefaultValue → String
  | literal _ => ""
  | currentDate => "CURRENT_DATE"
  | currentTime _ => "CURRENT_TIME"
  | currentTimestamp _ => "CURRENT_TIMESTAMP"
  | user => "USER"
  | currentUser => "CURRENT_USER"
  | sessionUser => "SESSION_USER"
  | systemUser => "SYSTEM_USER"
  | null => "NULL"

def precision : DefaultValue → Option Nat
  | currentTime p | currentTimestamp p => p
  | _ => none

/-- The default with another precision, if it is one that has a precision. -/
def round (p : Option Nat) : DefaultValue → DefaultValue
  | currentTime _ => currentTime p
  | currentTimestamp _ => currentTimestamp p
  | d => d

/-- The defaults with a keyword, without their precisions. -/
def plain : List DefaultValue :=
  [currentDate, currentTime none, currentTimestamp none, user, currentUser, sessionUser, systemUser,
    null]

theorem round_precision (d : DefaultValue) : (d.round none).round d.precision = d := by
  cases d <;> rfl

/-- A default is known by its keyword and its precision. -/
theorem legible : Legible [" DEFAULT "] constraintEnds Bare
    (fun d => " ".toList ++ d.script.spelling) (· = ·) := by
  have hkeyword := (Legible.keyword keyword plain
    (by decide : Code (["("] ++ constraintEnds) (plain.map keyword))).on (round none)
  have hprecision := (Legible.precision (by decide : Apart ["("] constraintEnds)).on precision
  refine (((hkeyword.append hprecision (Covers.refl _)).led " DEFAULT ").imp ?_ ?_).of_text _ ?_
  · intro d hd
    refine ⟨?_, trivial⟩
    cases d with
    | literal l => exact hd.elim
    | _ => simp [plain, round]
  · rintro d d' - - ⟨hkeyword, hprecision⟩
    rw [← d.round_precision, hkeyword, hprecision, d'.round_precision]
  · intro d hd
    rw [script, Script.spelling_text]
    cases d with
    | literal l => exact hd.elim
    | _ => simp [value, keyword, precision, round, Script.precision]

theorem spelling_clause (d : Option DefaultValue) :
    (clause d).spelling = d.elim [] fun d => " ".toList ++ d.script.spelling := by
  cases d with
  | none => rfl
  | some d => exact Script.spelling_text _ _

end DefaultValue

/-- What can follow the type of a column. -/
def typeEnds : List String :=
  [" DEFAULT "] ++ constraintEnds

/-- A type is a built-in one or the name of a domain. -/
theorem ColumnType.legible : Legible (DataType.keywords ++ ["\""]) typeEnds
    (fun t : ColumnType => t.Bare ∧ t.sites.filterMap Site.flaw? = [])
    (fun t => t.script.spelling) (· = ·) := by
  have htype : Legible DataType.keywords typeEnds _ (fun t : ColumnType => t.script.spelling)
      (· = ·) :=
    (DataType.legible (by decide) (by decide) (by decide)).image type (fun _ _ => rfl)
      fun _ _ _ _ he => congrArg type he
  have hdomain : Legible ["\""] typeEnds _ (fun t : ColumnType => t.script.spelling) (· = ·) :=
    (Name.legible (by decide)).image domain (fun _ _ => rfl) fun _ _ _ _ he => congrArg domain he
  refine (htype.union hdomain (by decide)).imp ?_ fun _ _ _ _ he => he
  rintro t ⟨hbare, hflaws⟩
  cases t with
  | type t => exact .inl ⟨t, DataType.whole_of_flaws hbare hflaws, rfl⟩
  | domain name => exact .inr ⟨name, Name.whole_of_flaws hflaws, rfl⟩

/-- An optional name behind the words that introduce it. -/
theorem Name.legible_clause {follow : List String} (lead : String) (hlead : Apart [lead] follow)
    (hf : Apart ["\"", ".\""] follow) : Legible ([lead] ++ follow) follow
      (fun name : Option Name => ∀ n ∈ name, n.Whole) (fun name => (clause lead name).spelling)
      (· = ·) := by
  refine (((Name.legible hf).led lead).option hlead).of_text _ ?_
  intro name _
  cases name with
  | none => rfl
  | some name => exact Script.spelling_text _ _

/-! ### Constraints -/

theorem Unique.legible : Legible ["PRIMARY KEY", "UNIQUE"] ruleEnds (fun u : Unique => u.ext = none)
    (fun u => u.script.spelling) (· = ·) := by
  have hkeyword := (Legible.keyword (fun b : Bool => if b then "PRIMARY KEY" else "UNIQUE")
    [true, false] (by decide : Code ([" ("] ++ ruleEnds) _)).on primaryKey
  have hcolumns := (Legible.columns (by decide : Apart [" ("] ruleEnds)).on Unique.columns
  refine ((hkeyword.append hcolumns (Covers.refl _)).imp ?_ ?_).of_text _ ?_
  · intro u _
    exact ⟨by cases u.primaryKey <;> decide, trivial⟩
  · rintro ⟨⟩ ⟨⟩ hext hext' ⟨hkey, hcolumns⟩
    cases hkey
    cases hcolumns
    cases hext
    cases hext'
    rfl
  · intro u hext
    simp only [script, hext, Extension.slot, Script.spelling_text, List.append_nil]

/-- An optional action behind the words that introduce it. -/
theorem ReferentialAction.legible_clause {follow : List String} (lead : String)
    (hlead : Apart [lead] follow) (hf : Code follow
      ([cascade, setNull, setDefault, noAction].map sql)) :
    Legible ([lead] ++ follow) follow (fun _ => True) (fun a => (clause lead a).spelling)
      (· = ·) := by
  have haction := ((Legible.keyword sql _ hf).led lead).option hlead
  refine (haction.of_text _ ?_).imp ?_ fun _ _ _ _ he => he
  · intro a _
    cases a with
    | none => rfl
    | some a =>
        rw [clause, Script.spelling_text, Script.spelling_text, Script.spelling_nil,
          List.append_nil]
        rfl
  · intro a _ a' _
    cases a' <;> decide

/-- What can follow the match type of a reference. -/
def matchEnds : List String :=
  [" ON UPDATE "] ++ ([" ON DELETE "] ++ ruleEnds)

/-- A match type. The regular one is known by its absence. -/
theorem MatchType.legible : Legible ([full, partialMatch].map sql ++ matchEnds) matchEnds
    (fun _ => True) (fun m : MatchType => m.sql.toList) (· = ·) := by
  have hwords := Legible.keyword sql [full, partialMatch]
    (by decide : Code matchEnds ([full, partialMatch].map sql))
  refine (hwords.union (Legible.absent regular rfl) (by decide)).imp ?_ fun _ _ _ _ he => he
  intro m _
  cases m with
  | regular => exact .inr rfl
  | full => exact .inl (by decide)
  | partialMatch => exact .inl (by decide)

theorem Reference.legible : Legible ["FOREIGN KEY (", "REFERENCES "] ruleEnds
    (fun r : Reference => r.ext = none ∧ r.sites.filterMap Site.flaw? = [])
    (fun r => r.script.spelling) (· = ·) := by
  have hreferring := (Legible.enclosed (Legible.ident (by decide : Apart ["\""] [", ", ") "]))
    (by decide) (by decide : Apart ["FOREIGN KEY ("] ["REFERENCES "])).on referring
  have hdelete := (ReferentialAction.legible_clause " ON DELETE " (by decide)
    (by decide : Code ruleEnds _)).on onDelete
  have hupdate := ((ReferentialAction.legible_clause " ON UPDATE " (by decide)
    (by decide : Code ([" ON DELETE "] ++ ruleEnds) _)).on onUpdate).append hdelete (Covers.refl _)
  have hmatch := (MatchType.legible.on matchType).append hupdate (Covers.refl _)
  have hcolumns := ((Legible.columns (by decide)).on columns).append hmatch (Covers.refl _)
  have htable := (((Name.legible (by decide)).on table).append hcolumns (Covers.refl _)).led
    "REFERENCES "
  refine ((hreferring.append htable (Covers.refl _)).imp ?_ ?_).of_text _ ?_
  · rintro r ⟨-, hflaws⟩
    simp only [sites, List.filterMap_append, List.append_eq_nil_iff] at hflaws
    exact ⟨fun _ _ => trivial, Name.whole_of_flaws hflaws.1.1.2, trivial, trivial, trivial, trivial⟩
  · rintro ⟨⟩ ⟨⟩ ⟨hext, -⟩ ⟨hext', -⟩ ⟨hreferring, htable, hcolumns, hmatch, hupdate, hdelete⟩
    cases hreferring
    cases htable
    cases hcolumns
    cases hmatch
    cases hupdate
    cases hdelete
    cases hext
    cases hext'
    rfl
  · rintro r ⟨hext, -⟩
    have hclause (is : List Ident) : Script.spelling (if is.isEmpty then []
        else .text "FOREIGN KEY " :: (Script.idents is ++ [.text " "])) =
          if is.isEmpty then [] else "FOREIGN KEY (".toList
            ++ (", ".toList.intercalate (is.map fun i => Script.spelling [.ident i])
              ++ ") ".toList) := by
      cases is with
      | nil => rfl
      | cons i is =>
          rw [if_neg (by simp), if_neg (by simp), Script.spelling_text, Script.spelling_append,
            Script.spelling_idents, List.append_assoc, List.append_assoc]
          rfl
    simp only [script, hext, Extension.slot, hclause, Script.spelling_text, Script.spelling_append,
      List.append_nil, List.append_assoc]

/-- A rule of a column is known by its first word. -/
theorem ColumnRule.legible : Legible ruleWords ruleEnds
    (fun k : ColumnRule => k.Bare ∧ k.sites.filterMap Site.flaw? = [])
    (fun k => k.script.spelling) (· = ·) := by
  have hnotNull : Legible ["NOT NULL"] ruleEnds (· = notNull)
      (fun k : ColumnRule => k.script.spelling) (· = ·) := by
    refine ((Legible.word "NOT NULL" _).of_text _ ?_).imp (fun _ hk => hk)
      fun _ _ hk hk' _ => hk.trans hk'.symm
    rintro _ rfl
    exact (Script.spelling_text _ _).trans (List.append_nil _)
  have hunique : Legible ["PRIMARY KEY", "UNIQUE"] ruleEnds _
      (fun k : ColumnRule => k.script.spelling) (· = ·) :=
    Unique.legible.image unique (fun _ _ => rfl) fun _ _ _ _ he => congrArg unique he
  have hreferences : Legible ["FOREIGN KEY (", "REFERENCES "] ruleEnds _
      (fun k : ColumnRule => k.script.spelling) (· = ·) :=
    Reference.legible.image references (fun _ _ => rfl) fun _ _ _ _ he => congrArg references he
  have hall := hnotNull.union (hunique.union hreferences (by decide)) (by decide)
  refine hall.imp ?_ fun _ _ _ _ he => he
  rintro k ⟨hbare, hflaws⟩
  cases k with
  | notNull => exact .inl rfl
  | unique u => exact .inr (.inl ⟨u, hbare, rfl⟩)
  | references r => exact .inr (.inr ⟨r, ⟨hbare, hflaws⟩, rfl⟩)
  | check condition => exact hbare.elim
  | custom node => exact hbare.elim

/-- A rule of a table is known by its first word. -/
theorem TableRule.legible : Legible ruleWords ruleEnds
    (fun k : TableRule => k.Bare ∧ k.sites.filterMap Site.flaw? = [])
    (fun k => k.script.spelling) (· = ·) := by
  have hunique : Legible ["PRIMARY KEY", "UNIQUE"] ruleEnds _
      (fun k : TableRule => k.script.spelling) (· = ·) :=
    Unique.legible.image unique (fun _ _ => rfl) fun _ _ _ _ he => congrArg unique he
  have hreferences : Legible ["FOREIGN KEY (", "REFERENCES "] ruleEnds _
      (fun k : TableRule => k.script.spelling) (· = ·) :=
    Reference.legible.image references (fun _ _ => rfl) fun _ _ _ _ he => congrArg references he
  have hall := (hunique.union hreferences (by decide)).mono (by decide : Covers ruleWords _)
    (Covers.refl _)
  refine hall.imp ?_ fun _ _ _ _ he => he
  rintro k ⟨hbare, hflaws⟩
  cases k with
  | unique u => exact .inl ⟨u, hbare, rfl⟩
  | references r => exact .inr ⟨r, ⟨hbare, hflaws⟩, rfl⟩
  | check condition => exact hbare.elim
  | custom node => exact hbare.elim

/-- When a constraint is checked. Both words of a check time are written, so that a constraint behind
it that begins with `NOT` is not taken for a part of it. -/
theorem CheckTime.legible : Legible ruleEnds constraintEnds
    (fun t : Option CheckTime => ∀ t' ∈ t, t'.ext = none) (fun t => (clause t).spelling)
    (· = ·) := by
  have hdeferrable := (Legible.keyword
    (fun b : Bool => if b then " DEFERRABLE" else " NOT DEFERRABLE") [true, false]
    (by decide : Code constraintEnds _)).on deferrable
  have hdeferred := (Legible.keyword
    (fun b : Bool => if b then " INITIALLY DEFERRED" else " INITIALLY IMMEDIATE") [true, false]
    (by decide : Code ([true, false].map fun b => if b then " DEFERRABLE" else " NOT DEFERRABLE")
      _)).on deferred
  have htime := (hdeferred.append hdeferrable (Covers.refl _)).mono
    (by decide : Covers [" INITIALLY "] _) (Covers.refl _)
  have hbool (b : Bool) : b ∈ [true, false] := by cases b <;> decide
  have hpart : Legible [" INITIALLY "] constraintEnds (fun t : CheckTime => t.ext = none)
      (fun t => (clause (some t)).spelling) (· = ·) := by
    refine (htime.imp (fun t _ => ⟨hbool _, hbool _⟩) ?_).of_text _ ?_
    · rintro ⟨⟩ ⟨⟩ hext hext' ⟨hdeferred, hdeferrable⟩
      cases hdeferred
      cases hdeferrable
      cases hext
      cases hext'
      rfl
    · intro t hext
      rw [clause, Script.spelling_text, Script.spelling_text, hext, Extension.slot,
        Script.spelling_nil, List.append_nil]
  refine (hpart.option (by decide)).of_text _ ?_
  intro t _
  cases t <;> rfl

/-- A constraint, given how its rules are told apart. -/
theorem Constraint.legible {Rule : Type} {ok : Rule → Prop} {rule : Rule → Script}
    (h : Legible ruleWords ruleEnds ok (fun k => (rule k).spelling) (· = ·)) :
    Legible constraintWords constraintEnds
      (fun c : Constraint Rule => ok c.rule ∧ (∀ t ∈ c.checkTime, t.ext = none) ∧ c.ext = none)
      (fun c => (c.scriptWith rule).spelling) (· = ·) := by
  have hname := (((Legible.ident (by decide : Apart ["\""] [" "])).led "CONSTRAINT ").ended " "
    (Covers.refl _) ruleWords).option (by decide)
  have hrule := (h.on Constraint.rule).append (CheckTime.legible.on checkTime) (Covers.refl _)
  refine (((hname.on name).append hrule (Covers.refl _)).imp ?_ ?_).of_text _ ?_
  · rintro c ⟨hrule, htime, -⟩
    exact ⟨fun _ _ => trivial, hrule, htime⟩
  · rintro ⟨⟩ ⟨⟩ ⟨-, -, hext⟩ ⟨-, -, hext'⟩ ⟨hname, hrule, htime⟩
    cases hname
    cases hrule
    cases htime
    cases hext
    cases hext'
    rfl
  · rintro ⟨name, k, time, ext⟩ ⟨-, -, hext⟩
    cases hext
    cases name with
    | none =>
        simp only [scriptWith, Extension.slot, Script.spelling_append, List.append_nil,
          List.nil_append, Option.elim_none]
    | some name =>
        simp only [scriptWith, Extension.slot, Script.spelling_append, Script.spelling_text,
          Script.spelling_ident, Script.spelling_nil, List.append_nil, Option.elim_some,
          List.append_assoc]

theorem Constraint.flaws_of_list {Rule : Type} {rule : Rule → List Site}
    {cs : List (Constraint Rule)} (h : (sitesList rule cs).filterMap Site.flaw? = []) :
    ∀ c ∈ cs, (rule c.rule).filterMap Site.flaw? = [] := by
  intro c hc
  rw [sitesList, List.filterMap_flatMap, List.flatMap_eq_nil_iff] at h
  have hparts := h c hc
  simp only [sitesWith, List.filterMap_append, List.append_eq_nil_iff] at hparts
  exact hparts.1.1.2

/-! ### Columns and tables -/

/-- A column is known by its name, its type, its default, its constraints and its collation. -/
theorem Column.legible : Legible ["\""] columnEnds
    (fun c : Column => c.Bare ∧ c.sites.filterMap Site.flaw? = [])
    (fun c => c.script.spelling) (· = ·) := by
  have hcollation := (Name.legible_clause " COLLATE " (by decide)
    (by decide : Apart _ columnEnds)).on collation
  have hconstraint := ((Constraint.legible ColumnRule.legible).behind " ").many
    (by decide : Apart _ ([" COLLATE "] ++ columnEnds))
  have hconstraints := (hconstraint.on constraints).append hcollation (Covers.refl _)
  have hdefault := ((DefaultValue.legible.option (by decide)).on default).append hconstraints
    (Covers.refl _)
  have htype := ((ColumnType.legible.on type).append hdefault (Covers.refl _)).led " "
  have hname := ((Legible.ident (by decide)).on name).append htype (Covers.refl _)
  refine (hname.imp ?_ ?_).of_text _ ?_
  · rintro c ⟨hbare, hflaws⟩
    simp only [sites, List.filterMap_append, List.append_eq_nil_iff] at hflaws
    obtain ⟨⟨⟨⟨htype, -⟩, hconstraints⟩, hcollation⟩, -⟩ := hflaws
    refine ⟨trivial, ⟨hbare.type, htype⟩, hbare.default, ?_, Name.whole_of_flaws_option hcollation⟩
    intro k hk
    have hk' := hbare.constraints k hk
    exact ⟨⟨hk'.rule, Constraint.flaws_of_list hconstraints k hk⟩, hk'.checkTime, hk'.ext⟩
  · rintro ⟨⟩ ⟨⟩ ⟨⟨-, -, -, hext⟩, -⟩ ⟨⟨-, -, -, hext'⟩, -⟩
      ⟨hname, htype, hdefault, hconstraints, hcollation⟩
    cases hname
    cases htype
    cases hdefault
    cases hconstraints
    cases hcollation
    cases hext
    cases hext'
    rfl
  · rintro c ⟨⟨-, -, -, hext⟩, -⟩
    simp only [script, hext, Extension.slot, Constraint.clauses, DefaultValue.spelling_clause,
      Script.spelling_ident, Script.spelling_text, Script.spelling_append, Script.spelling_flatMap,
      Script.spelling_nil, List.append_nil, List.append_assoc]

namespace TableDef

/-- The columns of a table and then its constraints, as they stand in its brackets. -/
def items (d : TableDef) : List (Column ⊕ Constraint TableRule) :=
  d.columns.map .inl ++ d.constraints.map .inr

def item : Column ⊕ Constraint TableRule → Script :=
  Sum.elim Column.script (Constraint.scriptWith TableRule.script)

theorem items_inj {d d' : TableDef} (h : d.items = d'.items) :
    d.columns = d'.columns ∧ d.constraints = d'.constraints := by
  have hcolumns (d : TableDef) : d.items.filterMap Sum.getLeft? = d.columns := by
    simp [items, List.filterMap_append, List.filterMap_map, Function.comp_def]
  have hconstraints (d : TableDef) : d.items.filterMap Sum.getRight? = d.constraints := by
    simp [items, List.filterMap_append, List.filterMap_map, Function.comp_def]
  rw [← hcolumns d, ← hcolumns d', ← hconstraints d, ← hconstraints d', h]
  exact ⟨rfl, rfl⟩

/-- A constraint is known from a column, which begins with a quote. -/
theorem legible_items : Legible (["\""] ++ constraintWords ++ [")"]) [")"]
    (fun d : TableDef => d.Bare ∧ d.sites.filterMap Site.flaw? = [])
    (fun d => (Script.commas (d.items.map item)).spelling) fun d d' => d.items = d'.items := by
  have hcolumn : Legible ["\""] columnEnds _
      (fun x : Column ⊕ Constraint TableRule => (item x).spelling) (· = ·) :=
    Column.legible.image .inl (fun _ _ => rfl) fun _ _ _ _ he => congrArg Sum.inl he
  have hconstraint : Legible constraintWords columnEnds _
      (fun x : Column ⊕ Constraint TableRule => (item x).spelling) (· = ·) :=
    ((Constraint.legible TableRule.legible).mono (Covers.refl _) (by decide)).image .inr
      (fun _ _ => rfl) fun _ _ _ _ he => congrArg Sum.inr he
  have hitems := Legible.commas (hcolumn.union hconstraint (by decide)) (by decide) (by decide)
  refine ((hitems.on items).of_text _ ?_).imp ?_ fun _ _ _ _ he => he
  · intro d _
    rw [Script.spelling_commas, List.map_map]
    rfl
  · rintro d ⟨hbare, hflaws⟩ x hx
    simp only [sites, List.filterMap_append, List.append_eq_nil_iff, List.filterMap_flatMap,
      List.flatMap_eq_nil_iff] at hflaws
    obtain ⟨⟨⟨-, hcolumns⟩, hconstraints⟩, -⟩ := hflaws
    rcases List.mem_append.1 hx with hx | hx
    · obtain ⟨c, hc, rfl⟩ := List.mem_map.1 hx
      exact .inl ⟨c, ⟨hbare.columns c hc, hcolumns c hc⟩, rfl⟩
    · obtain ⟨k, hk, rfl⟩ := List.mem_map.1 hx
      have hk' := hbare.constraints k hk
      exact .inr ⟨k, ⟨⟨hk'.rule, Constraint.flaws_of_list hconstraints k hk⟩, hk'.checkTime,
        hk'.ext⟩, rfl⟩

/-- A table is known by its mode, its name, what stands in its brackets, and what a commit does. -/
theorem legible : Legible ["CREATE "] [";"]
    (fun d : TableDef => d.Bare ∧ d.sites.filterMap Site.flaw? = [])
    (fun d => d.script.spelling) (· = ·) := by
  have hcommit := (((Legible.keyword OnCommit.sql [.delete, .preserve]
    (by decide : Code [";"] _)).led " ON COMMIT ").option (by decide)).on onCommit
  have hitems := ((legible_items.ended ")" (Covers.refl _) _).append hcommit (Covers.refl _)).led " ("
  have hname := (((Name.legible (by decide)).on name).append hitems (Covers.refl _)).led " "
  have hmode := (((Legible.keyword TableMode.sql [.persistent, .globalTemp, .localTemp]
    (by decide : Code [" "] _)).on mode).append hname (Covers.refl _)).led "CREATE "
  refine (hmode.imp ?_ ?_).of_text _ ?_
  · rintro d ⟨hbare, hflaws⟩
    have hmode : d.mode ∈ [.persistent, .globalTemp, .localTemp] := by cases d.mode <;> decide
    have hcommit : ∀ action ∈ d.onCommit, action ∈ [OnCommit.delete, .preserve] :=
      fun action _ => by cases action <;> decide
    have hparts := hflaws
    simp only [sites, List.filterMap_append, List.append_eq_nil_iff] at hparts
    exact ⟨hmode, Name.whole_of_flaws hparts.1.1.1, ⟨hbare, hflaws⟩, hcommit⟩
  · rintro d d' ⟨⟨-, -, hext⟩, -⟩ ⟨⟨-, -, hext'⟩, -⟩ ⟨hmode, hname, hitems, hcommit⟩
    obtain ⟨hcolumns, hconstraints⟩ := items_inj hitems
    cases d
    cases d'
    cases hmode
    cases hname
    cases hcolumns
    cases hconstraints
    cases hcommit
    cases hext
    cases hext'
    rfl
  · rintro ⟨name, mode, columns, constraints, onCommit, ext⟩ ⟨⟨-, -, hext⟩, -⟩
    cases hext
    have hitems : (items ⟨name, mode, columns, constraints, onCommit, none⟩).map item =
        columns.map Column.script ++ constraints.map (Constraint.scriptWith TableRule.script) := by
      rw [items, List.map_append, List.map_map, List.map_map]
      rfl
    rw [hitems]
    cases onCommit <;>
      simp only [script, Extension.slot, Script.spelling_text, Script.spelling_append,
        Script.spelling_nil, List.append_nil, List.append_assoc, Option.elim_none, Option.elim_some]

theorem Bare.forall_bare {d : TableDef} (h : d.Bare) : ∀ site ∈ d.sites, site.Bare := by
  simp only [sites, h.ext, Site.slot, List.append_nil, List.forall_mem_append]
  refine ⟨⟨Site.bare_name _, List.forall_mem_flatMap.2 fun c hc => ?_⟩,
    List.forall_mem_flatMap.2 fun k hk => ?_⟩
  · exact (h.columns c hc).forall_bare
  · exact (h.constraints k hk).forall_bare fun _ => TableRule.Bare.forall_bare

/-- Two tables without dialect nodes, checks and literals as defaults have the same text if and only
if they have the same definition. -/
theorem sql_inj {r r' : Renderer} {d d' : TableDef} (hd : d.Bare) (hd' : d'.Bare) {a a' : Rendered}
    (ha : (r.statement (.createTable d)).result = .ok a)
    (ha' : (r'.statement (.createTable d')).result = .ok a') : a.sql = a'.sql ↔ d = d' := by
  have hspelled {r : Renderer} {d : TableDef} (hd : d.Bare) {a : Rendered}
      (ha : (r.statement (.createTable d)).result = .ok a) :
      a.sql.toList = d.script.spelling ∧ d.sites.filterMap Site.flaw? = [] := by
    obtain ⟨hsql, hflaws⟩ := Tree.spelling_of_bare (t := .statement (.createTable d))
      (Site.forall_bare_nest hd.forall_bare) ha
    rw [Tree.flaws, Tree.sites, Statement.sites, Site.flaws_nest] at hflaws
    exact ⟨hsql.trans ((Script.spelling_guarded _ _).trans (List.append_nil _)), hflaws⟩
  obtain ⟨hsql, hflaws⟩ := hspelled hd ha
  obtain ⟨hsql', hflaws'⟩ := hspelled hd' ha'
  rw [← String.toList_inj, hsql, hsql']
  constructor
  · exact fun he => legible.inj ⟨hd, hflaws⟩ ⟨hd', hflaws'⟩ he
  · rintro rfl
    rfl

/-- A default of NULL before a check time that is not deferrable, with or without a constraint that
begins with NOT behind it. -/
theorem sql_inj_check_time :
    let rules (more : List (Constraint ColumnRule)) : List (Constraint ColumnRule) :=
      { rule := .unique { primaryKey := false, columns := [] },
        checkTime := some { deferred := true, deferrable := false } } :: more
    let column (more : List (Constraint ColumnRule)) : Column :=
      { name := "a", type := .type .date, default := some .null, constraints := rules more }
    let d (more : List (Constraint ColumnRule)) : TableDef :=
      { name := .simple "t", columns := [column more] }
    let r : Renderer := {}
    let notNull : Constraint ColumnRule := { rule := .notNull }
    (d []).Bare ∧ (d [notNull]).Bare ∧
      ∃ a a', (r.statement (.createTable (d []))).result = .ok a ∧
        (r.statement (.createTable (d [notNull]))).result = .ok a' ∧
        (a.sql = a'.sql ↔ d [] = d [notNull]) := by
  intro rules column d r notNull
  have hbare (more : List (Constraint ColumnRule)) (h : ∀ k ∈ more, k.Bare ColumnRule.Bare) :
      (d more).Bare := by
    have hunique : ∀ t ∈ some (⟨true, false, none⟩ : CheckTime), t.ext = none := by
      rintro t ⟨⟩
      rfl
    have hdefault : ∀ v ∈ some DefaultValue.null, v.Bare := by
      rintro v ⟨⟩
      trivial
    have hrules : ∀ k ∈ rules more, k.Bare ColumnRule.Bare :=
      List.forall_mem_cons.2 ⟨⟨rfl, hunique, rfl⟩, h⟩
    have hcolumn : (column more).Bare := ⟨trivial, hdefault, hrules, rfl⟩
    have hcolumns : ∀ c ∈ [column more], c.Bare := List.forall_mem_singleton.2 hcolumn
    exact ⟨hcolumns, List.forall_mem_nil _, rfl⟩
  have hshort := hbare [] (List.forall_mem_nil _)
  have hlong := hbare [notNull]
    (List.forall_mem_singleton.2 ⟨trivial, fun _ ht => (Option.not_mem_none _ ht).elim, rfl⟩)
  obtain ⟨a, ha⟩ : ∃ a, (r.statement (.createTable (d []))).result = .ok a := ⟨_, rfl⟩
  obtain ⟨a', ha'⟩ : ∃ a, (r.statement (.createTable (d [notNull]))).result = .ok a := ⟨_, rfl⟩
  exact ⟨hshort, hlong, a, a', ha, ha', sql_inj hshort hlong ha ha'⟩

end TableDef

end TypedSql
