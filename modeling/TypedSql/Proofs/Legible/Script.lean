import TypedSql.Proofs.Legible
import TypedSql.Proofs.Placeholder

/-! The spelling of scripts: the characters that they write where literals are written, with quotes in
them doubled. A finished rendering without dialect nodes has spelled its tree. Names, lists of columns
and built-in types are legible. -/

namespace TypedSql

open Text

/-- The characters of a token. -/
def Token.spelling : Token → List Char
  | text s => s.toList
  | ident i => (Text.quoted '"' i).toList
  | literal l => (l.sql .standard).toList

namespace Script

/-- The characters of what a script writes. -/
def spelling (s : Script) : List Char :=
  (tokens s).flatMap Token.spelling

variable (s t : Script)

@[simp] theorem spelling_nil : spelling [] = [] := rfl

@[simp] theorem spelling_text (w : String) : spelling (.text w :: s) = w.toList ++ spelling s := by
  rw [spelling, tokens, Step.tokens, List.singleton_append, List.flatMap_cons]
  rfl

@[simp] theorem spelling_ident (i : Ident) :
    spelling (.ident i :: s) = (Text.quoted '"' i).toList ++ spelling s := by
  rw [spelling, tokens, Step.tokens, List.singleton_append, List.flatMap_cons]
  rfl

theorem spelling_singleton_ident (i : Ident) : spelling [.ident i] = (Text.quoted '"' i).toList := by
  rw [spelling_ident, spelling_nil, List.append_nil]

@[simp] theorem spelling_literal (l : Literal) :
    spelling (.literal l :: s) = (l.sql .standard).toList ++ spelling s := by
  rw [spelling, tokens, Step.tokens, List.singleton_append, List.flatMap_cons]
  rfl

@[simp] theorem spelling_guarded : spelling (.guarded s :: t) = spelling s ++ spelling t := by
  rw [spelling, tokens, Step.tokens, List.flatMap_append]
  rfl

@[simp] theorem spelling_append : spelling (s ++ t) = spelling s ++ spelling t := by
  rw [spelling, tokens_append, List.flatMap_append]
  rfl

@[simp] theorem spelling_flag (b : Bool) (w : String) :
    spelling (if b then [.text w] else []) = if b then w.toList else [] := by
  cases b with
  | false => rfl
  | true => exact (spelling_text [] w).trans (List.append_nil _)

@[simp] theorem spelling_flatMap {α : Type} (f : α → Script) (xs : List α) :
    spelling (xs.flatMap f) = xs.flatMap fun x => spelling (f x) := by
  induction xs with
  | nil => rfl
  | cons x xs ih => rw [List.flatMap_cons, List.flatMap_cons, spelling_append, ih]

theorem spelling_intercalate (w : String) (parts : List Script) :
    spelling ([Step.text w].intercalate parts) = w.toList.intercalate (parts.map spelling) := by
  induction parts with
  | nil => rfl
  | cons part parts ih =>
      cases parts with
      | nil => rw [List.intercalate_singleton, List.map_singleton, List.intercalate_singleton]
      | cons next parts =>
          rw [List.intercalate_cons_cons, spelling_append, spelling_append, ih, spelling_text,
            spelling_nil, List.append_nil, List.map_cons, List.map_cons, List.map_cons,
            List.intercalate_cons_cons]

@[simp] theorem spelling_commas (parts : List Script) :
    spelling (commas parts) = ", ".toList.intercalate (parts.map spelling) :=
  spelling_intercalate ", " parts

theorem spelling_idents (is : List Ident) : spelling (idents is) = "(".toList
    ++ (", ".toList.intercalate (is.map fun i => spelling [.ident i]) ++ ")".toList) := by
  rw [idents, spelling_text, spelling_append, spelling_commas, List.map_map, spelling_text,
    spelling_nil, List.append_nil]
  rfl

end Script

/-- Where literals are written and quotes doubled, if there are literals, what is written is the
spelling. -/
theorem Layout.written_eq_spelling {o : Options} {sites : List Site} {s : Script}
    (h : Layout sites s) (hliterals : ∀ l, .literal l ∈ sites →
      o.paramsMode = false ∧ o.escaping = .standard) (count : Nat) :
    Token.written o count (Script.tokens s) = s.spelling := by
  have htoken (l : Literal) (hl : .literal l ∈ Script.tokens s) : .literal l ∈ sites := by
    have hmem : l ∈ (Script.tokens s).filterMap Token.literal? :=
      List.mem_filterMap.2 ⟨_, hl, rfl⟩
    rw [h.literals] at hmem
    obtain ⟨site, hsite, hl⟩ := List.mem_filterMap.1 hmem
    cases site with
    | literal l' =>
        cases hl
        exact hsite
    | _ => cases hl
  rw [Script.spelling]
  generalize Script.tokens s = tokens at htoken
  induction tokens generalizing count with
  | nil => rfl
  | cons token tokens ih =>
      rw [Token.written_cons, ih _ fun l hl => htoken l (List.mem_cons_of_mem _ hl),
        List.flatMap_cons]
      congr 1
      cases token with
      | literal l =>
          obtain ⟨hmode, hescaping⟩ := hliterals l (htoken l List.mem_cons_self)
          rw [Token.piece, hmode, hescaping]
          rfl
      | _ => rfl

namespace Site

/-- The site is neither a literal nor a dialect node, so that all renderers write it alike. -/
def Bare : Site → Prop
  | literal _ => False
  | node _ _ => False
  | _ => True

theorem forall_bare_nest {inside : List Site} (h : ∀ site ∈ inside, site.Bare) :
    ∀ site ∈ nest inside, site.Bare := by
  refine List.forall_mem_cons.2 ⟨trivial, List.forall_mem_map.2 fun site hsite => ?_⟩
  have hbare := h site hsite
  cases site <;> exact hbare

theorem flaws_nest (inside : List Site) :
    (nest inside).filterMap flaw? = inside.filterMap flaw? :=
  filterMap_nest (fun _ => rfl) inside

theorem bare_ident (is : List Ident) : ∀ site ∈ is.map Site.ident, site.Bare :=
  List.forall_mem_map.2 fun _ _ => trivial

theorem bare_name (name : Name) : ∀ site ∈ name.sites, site.Bare := by
  cases name with
  | simple i => exact List.forall_mem_singleton.2 trivial
  | compound segments =>
      rw [Name.sites, compound]
      split
      · exact List.forall_mem_singleton.2 trivial
      · exact bare_ident segments

end Site

namespace Tree

/-- A finished rendering without dialect nodes has spelled its tree, and the tree has no flaw. -/
theorem spelling_of_ok {r : Renderer} {t : Tree} {a : Rendered}
    (hnodes : ∀ family n, .node family n ∉ t.sites)
    (hliterals : ∀ l, .literal l ∈ t.sites →
      r.options.paramsMode = false ∧ r.options.escaping = .standard)
    (ha : (t.report r).result = .ok a) : a.sql.toList = t.script.spelling ∧ t.flaws = [] := by
  rw [report_result, Renderer.render_eq_ok] at ha
  obtain ⟨c, hc, rfl⟩ := ha
  have hrefuses := Registry.refuses_of_empty rfl r.options 0
  rw [Renderer.run, t.layout.run_congr hnodes _ (({} : Registry).call r.options 0),
    t.layout.run_eq_done hrefuses] at hc
  obtain ⟨hdefects, rfl⟩ := hc
  refine ⟨?_, ?_⟩
  · rw [Renderer.finish, Context.sql_putAll_fresh]
    exact t.layout.written_eq_spelling hliterals 0
  · rw [show ({} : Context).depth = 0 from rfl, defects_sites] at hdefects
    exact (defects_eq_nil_iff.1 hdefects).1

/-- Without literals and dialect nodes that holds for all renderers. -/
theorem spelling_of_bare {r : Renderer} {t : Tree} {a : Rendered} (h : ∀ site ∈ t.sites, site.Bare)
    (ha : (t.report r).result = .ok a) : a.sql.toList = t.script.spelling ∧ t.flaws = [] :=
  spelling_of_ok (fun _ _ hnode => h _ hnode) (fun _ hliteral => (h _ hliteral).elim) ha

/-- Without handlers a finished rendering has no dialect nodes. -/
theorem no_node_of_ok {r : Renderer} (hr : r.handlers = {}) {t : Tree} {a : Rendered}
    (ha : (t.report r).result = .ok a) (family : String) (n : Extension) :
    .node family n ∉ t.sites := by
  intro hnode
  have hdefects := (result_iff_defects r hr t).1.1 ⟨a, ha⟩
  have hflaws := (defects_eq_nil_iff.1 hdefects).1
  rw [flaws, List.filterMap_eq_nil_iff] at hflaws
  cases hflaws _ hnode

end Tree

/-! ### Names -/

namespace Text.Legible

variable {follow : List String}

theorem ident (hf : Apart ["\""] follow) :
    Legible ["\""] follow (fun _ => True) (fun i : Ident => Script.spelling [.ident i]) (· = ·) := by
  refine (quoted '"' hf).of_text _ ?_
  exact fun i _ => Script.spelling_singleton_ident i

/-- Identifiers with dots between them. Another identifier is known by the dot and its quote. -/
theorem segments (hf : Apart ["\"", ".\""] follow) :
    Legible ["\""] follow (· ≠ []) (fun is => (Script.chain is).spelling) (· = ·) := by
  have hquote : Apart ["\""] ([".\""] ++ follow) := by
    intro w hw v hv
    cases List.mem_singleton.1 hw
    rcases List.mem_append.1 hv with hv | hv
    · cases List.mem_singleton.1 hv
      decide
    · exact hf _ List.mem_cons_self v hv
  have hchain := Legible.chain [".\""] (w := ".") (ident hquote) (by decide)
    fun w hw => hf w (List.mem_cons_of_mem _ hw)
  refine (hchain.of_text _ ?_).imp (fun is his => ⟨his, fun _ _ => trivial⟩) fun _ _ _ _ he => he
  intro is _
  rw [Script.chain, Script.spelling_intercalate, List.map_map]
  rfl

/-- Identifiers in brackets, or nothing. -/
theorem columns (hf : Apart [" ("] follow) : Legible (" (" :: follow) follow (fun _ => True)
    (fun is => (Script.columns is).spelling) (· = ·) := by
  have hlist := Legible.enclosed (ident (by decide : Apart ["\""] [", ", ")"])) (by decide) hf
  refine (hlist.of_text _ ?_).imp (fun is _ _ _ => trivial) fun _ _ _ _ he => he
  intro is _
  cases is with
  | nil => rfl
  | cons i is =>
      rw [Script.columns, if_neg (by simp), if_neg (by simp), Script.spelling_text,
        Script.spelling_idents]
      rfl

end Text.Legible

/-- The name can be written: a compound one has two segments or more. -/
def Name.Whole : Name → Prop
  | simple _ => True
  | compound segments => 2 ≤ segments.length

theorem Name.whole_of_flaws {name : Name} (h : name.sites.filterMap Site.flaw? = []) :
    name.Whole := by
  cases name with
  | simple i => trivial
  | compound segments =>
      by_contra hshort
      rw [sites, Site.compound, if_pos (Nat.lt_of_not_le hshort)] at h
      cases h

theorem Name.whole_of_flaws_option {name : Option Name}
    (h : (sitesOption name).filterMap Site.flaw? = []) : ∀ n ∈ name, n.Whole := by
  rintro n hn
  cases hn
  exact whole_of_flaws h

theorem Name.segments_ne_nil {name : Name} (h : name.Whole) : name.segments ≠ [] := by
  cases name with
  | simple i => exact List.cons_ne_nil i []
  | compound segments =>
      rintro rfl
      exact absurd h (by decide : ¬ 2 ≤ 0)

/-- Two names that can be written are the same if they have the same segments. -/
theorem Name.eq_of_segments_eq {name name' : Name} (h : name.Whole) (h' : name'.Whole)
    (he : name.segments = name'.segments) : name = name' := by
  have hsimple (i : Ident) (segments : List Ident) (h : (compound segments).Whole) :
      [i] ≠ segments := by
    rintro rfl
    exact absurd h (by decide : ¬ 2 ≤ 1)
  cases name with
  | simple i =>
      cases name' with
      | simple i' => exact congrArg simple (List.cons.inj he).1
      | compound segments' => exact absurd he (hsimple i segments' h')
  | compound segments =>
      cases name' with
      | simple i' => exact absurd he.symm (hsimple i' segments h)
      | compound segments' => exact congrArg compound he

/-- A name that can be written is a chain of its segments. -/
theorem Name.script_of_whole {name : Name} (h : name.Whole) :
    name.script = Script.chain name.segments := by
  cases name with
  | simple i => rfl
  | compound segments =>
      rw [script, Script.compound, if_neg (Nat.not_lt.2 h)]
      rfl

/-- A name is known by its segments. -/
theorem Name.legible {follow : List String} (hf : Apart ["\"", ".\""] follow) :
    Legible ["\""] follow Whole (fun name => name.script.spelling) (· = ·) := by
  refine (((Legible.segments hf).on segments).imp (fun _ h => segments_ne_nil h)
    fun _ _ h h' he => eq_of_segments_eq h h' he).of_text _ ?_
  exact fun name h => congrArg Script.spelling (script_of_whole h)

/-! ### Types -/

namespace DataType

/-- The lengths, precisions and scales of a type, as many as it has. -/
def sizes : DataType → List Nat
  | char p | varchar p | float p | time p _ | timestamp p _ => p.toList
  | numeric p s | decimal p s => p.toList ++ s.toList
  | _ => []

def zoned : DataType → Bool
  | time _ zoned | timestamp _ zoned => zoned
  | _ => false

/-- The type with other sizes and with or without a zone. -/
def resize (sizes : List Nat) (zoned : Bool) : DataType → DataType
  | char _ => char sizes[0]?
  | varchar _ => varchar sizes[0]?
  | numeric _ _ => numeric sizes[0]? sizes[1]?
  | decimal _ _ => decimal sizes[0]? sizes[1]?
  | float _ => float sizes[0]?
  | time _ _ => time sizes[0]? zoned
  | timestamp _ _ => timestamp sizes[0]? zoned
  | t => t

/-- The built-in types without sizes and zones. -/
def plain : List DataType :=
  [char none, varchar none, text, numeric none none, decimal none none, smallint, integer, bigint,
    float none, real, doublePrecision, boolean, date, time none false, timestamp none false]

def keywords : List String :=
  plain.map fun t => t.keyword?.getD ""

/-- The type is a built-in one. -/
def Bare : DataType → Prop
  | custom _ => False
  | _ => True

/-- The type is a built-in one that can be written: it has no scale without a precision. -/
def Whole : DataType → Prop
  | numeric p s | decimal p s => p = none → s = none
  | custom _ => False
  | _ => True

theorem whole_of_flaws {t : DataType} (ht : t.Bare)
    (h : t.sites.filterMap Site.flaw? = []) : t.Whole := by
  have hscaled (keyword : String) (p s : Option Nat)
      (h : (scaledSites keyword p s).filterMap Site.flaw? = []) : p = none → s = none := by
    rintro rfl
    cases s with
    | none => rfl
    | some s => cases h
  cases t with
  | numeric p s => exact hscaled _ p s h
  | decimal p s => exact hscaled _ p s h
  | custom n => exact ht.elim
  | _ => trivial

theorem resize_sizes {t : DataType} (h : t.Whole) :
    (t.resize [] false).resize t.sizes t.zoned = t := by
  have hpair (p s : Option Nat) (h : p = none → s = none) :
      (p.toList ++ s.toList)[0]? = p ∧ (p.toList ++ s.toList)[1]? = s := by
    cases p with
    | none =>
        rw [h rfl]
        exact ⟨rfl, rfl⟩
    | some p => cases s <;> exact ⟨rfl, rfl⟩
  have hsingle (p : Option Nat) : p.toList[0]? = p := by
    cases p <;> rfl
  cases t with
  | char p => exact congrArg char (hsingle p)
  | varchar p => exact congrArg varchar (hsingle p)
  | numeric p s => exact congrArg₂ numeric (hpair p s h).1 (hpair p s h).2
  | decimal p s => exact congrArg₂ decimal (hpair p s h).1 (hpair p s h).2
  | float p => exact congrArg float (hsingle p)
  | time p zoned => exact congrArg (time · zoned) (hsingle p)
  | timestamp p zoned => exact congrArg (timestamp · zoned) (hsingle p)
  | _ => rfl

/-- What is written behind the keyword of a type. -/
def suffix (t : DataType) : List Char :=
  (if t.sizes.isEmpty then []
    else "(".toList ++ (", ".toList.intercalate (t.sizes.map fun n => (toString n).toList)
      ++ ")".toList))
  ++ if t.zoned then " WITH TIME ZONE".toList else []

theorem spelling_script {t : DataType} (h : t.Whole) :
    t.script.spelling = (t.keyword?.getD "").toList ++ t.suffix := by
  have hone (p : Nat) : s!"({p})".toList = "(".toList ++ ((toString p).toList ++ ")".toList) := by
    rw [← String.toList_append, ← String.toList_append, ← String.append_assoc]
    rfl
  have htwo (p s : Nat) : s!"({p}, {s})".toList = "(".toList
      ++ ((toString p).toList ++ (", ".toList ++ ((toString s).toList ++ ")".toList))) := by
    simp only [← String.toList_append, ← String.append_assoc]
    rfl
  have hsize (p : Option Nat) (zoned : Bool) : (Script.precision p ++ zone zoned).spelling =
      (time p zoned).suffix := by
    cases p <;> cases zoned <;>
      simp only [Script.precision, zone, suffix, sizes, DataType.zoned, hone,
        Script.spelling_append, Script.spelling_text, Script.spelling_nil, Option.toList,
        List.map_nil, List.map_cons, List.intercalate_singleton, List.append_nil] <;> rfl
  have hscaled (keyword : String) (p s : Option Nat) (h : p = none → s = none) :
      (scaled keyword p s).spelling = keyword.toList ++ (numeric p s).suffix := by
    cases p with
    | none =>
        rw [h rfl, scaled, Script.spelling_text]
        rfl
    | some p =>
        cases s <;>
          simp only [scaled, Script.precision, suffix, sizes, DataType.zoned, hone, htwo,
            Script.spelling_text, Script.spelling_nil, Option.toList, List.append_nil,
            List.cons_append, List.nil_append, List.map_nil, List.map_cons,
            List.intercalate_singleton, List.intercalate_cons_cons, List.append_assoc] <;>
          exact congrArg (keyword.toList ++ ·) (List.append_nil _).symm
  have hlength (w : String) (p : Option Nat) :
      Script.spelling (.text w :: Script.precision p) = w.toList ++ (time p false).suffix := by
    rw [← hsize, Script.spelling_text, zone, if_neg Bool.false_ne_true, List.append_nil]
  cases t with
  | char p => exact hlength _ p
  | varchar p => exact hlength _ p
  | numeric p s => exact hscaled _ p s h
  | decimal p s => exact hscaled _ p s h
  | float p => exact hlength _ p
  | time p zoned => exact (Script.spelling_text _ _).trans (congrArg _ (hsize p zoned))
  | timestamp p zoned => exact (Script.spelling_text _ _).trans (congrArg _ (hsize p zoned))
  | custom n => exact h.elim
  | _ => exact Script.spelling_text _ _

/-- A built-in type is known by its keyword, its sizes and its zone. -/
theorem legible {follow : List String} (hcode : Code ("(" :: " WITH TIME ZONE" :: follow) keywords)
    (hsizes : Apart ["("] (" WITH TIME ZONE" :: follow)) (hzone : Apart [" WITH TIME ZONE"] follow) :
    Legible keywords follow Whole (fun t => t.script.spelling) (· = ·) := by
  have hnumbers := Legible.enclosed (Legible.number (by decide : Apart digits [", ", ")"]))
    (by decide) hsizes
  have hsuffix := (hnumbers.on sizes).append ((Legible.flag hzone).on zoned) (Covers.refl _)
  have hkeyword := (Legible.keyword (fun t => t.keyword?.getD "") plain hcode).on (resize [] false)
  refine ((hkeyword.append hsuffix (Covers.refl _)).imp ?_ ?_).of_text _ ?_
  · intro t h
    refine ⟨?_, fun _ _ => trivial, trivial⟩
    cases t with
    | custom n => exact h.elim
    | _ => simp [plain, resize]
  · rintro t t' h h' ⟨hplain, hsizes, hzoned⟩
    calc t = (t.resize [] false).resize t.sizes t.zoned := (resize_sizes h).symm
      _ = (t'.resize [] false).resize t'.sizes t'.zoned := by rw [hplain, hsizes, hzoned]
      _ = t' := resize_sizes h'
  · intro t h
    rw [spelling_script h, suffix]
    cases t <;> rfl

end DataType

end TypedSql
