import TypedSql.Proofs.Sequence
import TypedSql.Proofs.Token
import TypedSql.Proofs.Tree

/-! The defects of a tree, for renderers without handlers: guarded nodes below the limit, names and
types that cannot be written, and dialect nodes. A rendering succeeds if and only if its tree has no
defect, and otherwise its error is the first one in the order of the text. -/

namespace TypedSql

namespace Site

/-- What is wrong with a site itself, however deep it is. -/
def flaw? : Site → Option RenderError
  | short n =>
    some (.malformedTree "CompoundIdent" s!"expected at least 2 segments, got {n}")
  | unscaled keyword =>
    some (.malformedTree "DataType" s!"{keyword} scale given without a precision")
  | node family n => some (.unsupportedExtension family n.kind)
  | _ => none

/-- What is wrong with a site under a limit: a guarded node may be too deep. -/
def defect? (limit : Nat) : Site → Option RenderError
  | guarded depth => if limit < depth then some (.recursionLimitExceeded limit) else none
  | site => site.flaw?

/-- The defects of sites that stand below `depth` guarded nodes, in their order. -/
def defects (limit depth : Nat) (sites : List Site) : List RenderError :=
  sites.filterMap fun site => (site.sink depth).defect? limit

/-- The depth of a guarded node. -/
def depth? : Site → Option Nat
  | guarded depth => some depth
  | _ => none

theorem sink_zero (site : Site) : site.sink 0 = site := by
  cases site <;> rfl

/-- A site without a flaw is a defect only where it is a guarded node below the limit. -/
theorem defect?_eq_none_iff {limit : Nat} {site : Site} :
    site.defect? limit = none ↔
      site.flaw? = none ∧ ∀ depth ∈ site.depth?, depth ≤ limit := by
  cases site with
  | guarded depth =>
      rw [defect?]
      by_cases h : limit < depth
      · rw [if_pos h]
        constructor
        · intro hnone
          cases hnone
        · rintro ⟨-, hle⟩
          have hdepth := hle depth rfl
          omega
      · rw [if_neg h]
        constructor
        · intro _
          refine ⟨rfl, ?_⟩
          intro d hd
          cases hd
          omega
        · intro _
          rfl
  | _ => exact ⟨fun h => ⟨h, nofun⟩, fun h => h.1⟩

theorem defects_append (limit depth : Nat) (a b : List Site) :
    defects limit depth (a ++ b) = defects limit depth a ++ defects limit depth b :=
  List.filterMap_append

theorem sink_sink (j k : Nat) (site : Site) : (site.sink j).sink k = site.sink (k + j) := by
  cases site with
  | guarded depth =>
      simp only [sink, guarded.injEq]
      omega
  | _ => rfl

theorem defects_sink (limit depth : Nat) (sites : List Site) :
    defects limit depth (sites.map (sink 1)) = defects limit (depth + 1) sites := by
  rw [defects, defects, List.filterMap_map]
  congr 1
  funext site
  rw [Function.comp_apply, sink_sink]

/-- A guarded node that is too deep is a defect before all the defects inside it. -/
theorem defects_nest (limit depth : Nat) (inside : List Site) :
    defects limit depth (nest inside) =
      (if limit < depth + 1 then [.recursionLimitExceeded limit] else [])
        ++ defects limit (depth + 1) inside := by
  rw [nest, defects, List.filterMap_cons, ← defects_sink]
  have hguard : (sink depth (guarded 1)).defect? limit =
      if limit < depth + 1 then some (.recursionLimitExceeded limit) else none := by
    rw [sink, defect?, Nat.add_comm]
  rw [hguard]
  by_cases h : limit < depth + 1
  · rw [if_pos h, if_pos h]
    rfl
  · rw [if_neg h, if_neg h]
    rfl

/-- What has no defect at some depth has none where less is around it. -/
theorem defects_zero_eq_nil {limit depth : Nat} {sites : List Site}
    (h : defects limit depth sites = []) : defects limit 0 sites = [] := by
  rw [defects, List.filterMap_eq_nil_iff] at h ⊢
  intro site hs
  have hdefect := h site hs
  cases site with
  | guarded k =>
      rw [defect?_eq_none_iff] at hdefect ⊢
      refine ⟨rfl, ?_⟩
      intro d hd
      cases hd
      have hk := hdefect.2 (k + depth) rfl
      omega
  | _ => exact hdefect

end Site

namespace Outcome

/-- The outcome is the first defect, or it is done with the context where there is none. -/
def Answers (c : Context) : List RenderError → Outcome → Prop
  | [], outcome => outcome = done c
  | e :: _, outcome => ∃ c', outcome = failed e c'

theorem Answers.andThen {c c' : Context} {ds ds' : List RenderError} {outcome : Outcome}
    {next : Context → Outcome} (h : outcome.Answers c ds) (hnext : (next c).Answers c' ds') :
    (outcome.andThen next).Answers c' (ds ++ ds') := by
  cases ds with
  | nil =>
      have hdone : outcome = done c := h
      rw [hdone]
      exact hnext
  | cons e ds =>
      obtain ⟨c₁, hfailed⟩ := h
      rw [hfailed]
      exact ⟨c₁, rfl⟩

theorem Answers.leave {c : Context} {ds : List RenderError} {outcome : Outcome}
    (h : outcome.Answers c ds) : outcome.leave.Answers c.leave ds := by
  cases ds with
  | nil =>
      have hdone : outcome = done c := h
      rw [hdone]
      rfl
  | cons e ds =>
      obtain ⟨c₁, hfailed⟩ := h
      rw [hfailed]
      exact ⟨c₁.leave, rfl⟩

end Outcome

/-- A caller that finds no handler for any node. -/
def Caller.Refuses (call : Caller) : Prop :=
  ∀ family n c, call family n c = .failed (.unsupportedExtension family n.kind) c

theorem Registry.refuses_of_empty {r : Registry} (hr : r = {}) (o : Options) (calls : Nat) :
    (r.call o calls).Refuses := by
  intro family n c
  rw [hr]
  exact Registry.call_missing o family c calls rfl

/-- A run without handlers goes on to the first defect of what is laid out, at the depth of its
context, and else it puts all tokens. -/
theorem Layout.run {o : Options} {call : Caller} (hcall : call.Refuses) {sites : List Site}
    {s : Script} (h : Layout sites s) (c : Context) :
    (Script.run o call c s).Answers (c.putAll o (Script.tokens s))
      (Site.defects o.maxDepth c.depth sites) := by
  -- Induction on the layout: each step answers for its own site, and the rest runs on the
  -- context that the step leaves, which has the same depth.
  induction h generalizing c with
  | nil =>
      rw [Script.run_nil]
      rfl
  | text hs _ ih =>
      rw [Script.run_cons, Step.run]
      exact ih (c.write _)
  | operator _ ih =>
      rw [Script.run_cons, Step.run]
      exact ih (c.write _)
  | ident _ _ ih =>
      rw [Script.run_cons, Step.run]
      exact ih (c.write _)
  | @literal l sites steps _ _ ih =>
      have hrest := ih (c.put o (.literal l))
      rw [Context.put_depth] at hrest
      rw [Script.run_cons, Step.run]
      exact hrest
  | @guarded inside sites body steps _ _ _ ihbody ih =>
      have hrest := ih (c.putAll o (Script.tokens body))
      rw [Context.putAll_depth] at hrest
      rw [Script.run_cons, Script.tokens, Step.tokens, Context.putAll_append, Site.defects_append,
        Site.defects_nest, Step.run]
      by_cases hlimit : o.maxDepth < c.depth + 1
      · rw [if_pos hlimit, if_pos (show o.maxDepth < c.enter.depth from hlimit)]
        exact ⟨c.enter, rfl⟩
      · have hbody := (ihbody c.enter).leave
        rw [Context.leave_putAll_enter] at hbody
        rw [if_neg hlimit, if_neg (show ¬ o.maxDepth < c.enter.depth from hlimit)]
        exact hbody.andThen hrest
  | short _ _ =>
      rw [Script.run_cons, Step.run]
      exact ⟨c, rfl⟩
  | unscaled _ _ =>
      rw [Script.run_cons, Step.run]
      exact ⟨c, rfl⟩
  | node _ _ =>
      rw [Script.run_cons, Step.run, hcall]
      exact ⟨c, rfl⟩

/-- A run without handlers is done if and only if nothing that is laid out is a defect. -/
theorem Layout.run_eq_done {o : Options} {call : Caller} (hcall : call.Refuses) {sites : List Site}
    {s : Script} (h : Layout sites s) {c c' : Context} :
    Script.run o call c s = .done c' ↔
      Site.defects o.maxDepth c.depth sites = [] ∧ c' = c.putAll o (Script.tokens s) := by
  have hrun := h.run (o := o) hcall c
  cases hd : Site.defects o.maxDepth c.depth sites with
  | nil =>
      rw [hd] at hrun
      rw [show Script.run o call c s = .done _ from hrun, Outcome.done.injEq]
      exact ⟨fun he => ⟨rfl, he.symm⟩, fun he => he.2.symm⟩
  | cons e ds =>
      rw [hd] at hrun
      obtain ⟨c₁, hfailed⟩ := hrun
      rw [hfailed]
      exact ⟨nofun, nofun⟩

/-- Without dialect nodes nothing calls a handler, so the caller does not matter. -/
theorem Layout.run_congr {o : Options} {sites : List Site} {s : Script} (h : Layout sites s)
    (hnodes : ∀ family n, Site.node family n ∉ sites) (call call' : Caller) (c : Context) :
    Script.run o call c s = Script.run o call' c s := by
  induction h generalizing c with
  | nil => rw [Script.run_nil, Script.run_nil]
  | text _ _ ih =>
      rw [Script.run_cons, Script.run_cons, Step.run, Step.run]
      exact ih hnodes _
  | operator _ ih | ident _ _ ih | literal _ _ ih =>
      rw [Script.run_cons, Script.run_cons, Step.run, Step.run]
      exact ih (fun family n hmem => hnodes family n (List.mem_cons_of_mem _ hmem)) _
  | @guarded inside sites body steps _ _ _ ihbody ih =>
      have hinside (family : String) (n : Extension) : Site.node family n ∉ inside :=
        fun hmem => hnodes family n (List.mem_append_left _ (Site.node_mem_nest hmem))
      have hrest (family : String) (n : Extension) : Site.node family n ∉ sites :=
        fun hmem => hnodes family n (List.mem_append_right _ hmem)
      rw [Script.run_cons, Script.run_cons, Step.run, Step.run, ihbody hinside]
      exact congrArg (Outcome.andThen _) (funext (ih hrest))
  | short _ _ | unscaled _ _ =>
      rw [Script.run_cons, Script.run_cons, Step.run, Step.run]
      rfl
  | node _ _ => exact absurd List.mem_cons_self (hnodes _ _)

namespace Tree

/-- The defects of a tree under a limit, in the order of its text. -/
def defects (limit : Nat) (t : Tree) : List RenderError :=
  t.sites.filterMap (Site.defect? limit)

/-- The defects that do not come from the limit. -/
def flaws (t : Tree) : List RenderError :=
  t.sites.filterMap Site.flaw?

/-- How deep the guarded nodes of a tree nest. -/
def height (t : Tree) : Nat :=
  (t.sites.filterMap Site.depth?).foldr max 0

theorem height_le_iff {t : Tree} {limit : Nat} :
    t.height ≤ limit ↔ ∀ site ∈ t.sites, ∀ depth ∈ site.depth?, depth ≤ limit := by
  rw [height]
  induction t.sites with
  | nil => simp
  | cons site sites ih =>
      rw [List.forall_mem_cons, ← ih]
      cases h : site.depth? with
      | none => simp [h]
      | some depth =>
          rw [List.filterMap_cons_some h, List.foldr_cons, Nat.max_le]
          simp

/-- Without other flaws a tree has no defect if and only if it fits under the limit. -/
theorem defects_eq_nil_iff {t : Tree} {limit : Nat} :
    t.defects limit = [] ↔ t.flaws = [] ∧ t.height ≤ limit := by
  rw [height_le_iff, defects, flaws, List.filterMap_eq_nil_iff, List.filterMap_eq_nil_iff]
  constructor
  · intro h
    exact ⟨fun site hs => (Site.defect?_eq_none_iff.1 (h site hs)).1,
      fun site hs => (Site.defect?_eq_none_iff.1 (h site hs)).2⟩
  · rintro ⟨hflaws, hdepths⟩ site hs
    exact Site.defect?_eq_none_iff.2 ⟨hflaws site hs, hdepths site hs⟩

/-- The defects of a tree are those of its sites with no guard around them. -/
theorem defects_sites (limit : Nat) (t : Tree) : Site.defects limit 0 t.sites = t.defects limit := by
  rw [Site.defects, defects]
  congr 1
  funext site
  rw [Site.sink_zero]

/-- The outcome of a rendering without handlers. -/
theorem run_answers {r : Renderer} (hr : r.handlers = {}) (t : Tree) :
    (r.run {} t.script).Answers (({} : Context).putAll r.options (Script.tokens t.script))
      (t.defects r.options.maxDepth) := by
  have hcall := Registry.refuses_of_empty hr r.options r.callLimit
  rw [← defects_sites]
  exact t.layout.run hcall {}

/-- What a rendering without handlers results in. -/
theorem result_eq {r : Renderer} (hr : r.handlers = {}) (t : Tree) :
    (t.report r).result = match t.defects r.options.maxDepth with
      | [] => .ok (Renderer.finish (({} : Context).putAll r.options (Script.tokens t.script)))
      | e :: _ => .error (.error e) := by
  have hrun := run_answers hr t
  rw [report_result, Renderer.render]
  cases hd : t.defects r.options.maxDepth with
  | nil =>
      rw [hd] at hrun
      rw [show r.run {} t.script = _ from hrun]
  | cons e ds =>
      rw [hd] at hrun
      obtain ⟨c, hfailed⟩ := hrun
      rw [hfailed]

theorem result_of_nil {r : Renderer} (hr : r.handlers = {}) {t : Tree}
    (h : t.defects r.options.maxDepth = []) : (t.report r).result =
      .ok (Renderer.finish (({} : Context).putAll r.options (Script.tokens t.script))) := by
  rw [result_eq hr, h]

theorem result_of_cons {r : Renderer} (hr : r.handlers = {}) {t : Tree} {e : RenderError}
    {ds : List RenderError} (h : t.defects r.options.maxDepth = e :: ds) :
    (t.report r).result = .error (.error e) := by
  rw [result_eq hr, h]

/-- Without handlers a tree renders if and only if it has no defect, and else the error is its first
defect. So a tree without other flaws renders if and only if it fits under the limit. -/
theorem result_iff_defects (r : Renderer) (hr : r.handlers = {}) (t : Tree) :
    ((∃ a, (t.report r).result = .ok a) ↔ t.defects r.options.maxDepth = []) ∧
      (∀ halt, (t.report r).result = .error halt ↔
        ∃ e, (t.defects r.options.maxDepth).head? = some e ∧ halt = .error e) ∧
      (t.flaws = [] →
        ((∃ a, (t.report r).result = .ok a) ↔ t.height ≤ r.options.maxDepth)) := by
  have hok : (∃ a, (t.report r).result = .ok a) ↔ t.defects r.options.maxDepth = [] := by
    rw [result_eq hr]
    cases t.defects r.options.maxDepth with
    | nil => exact ⟨fun _ => rfl, fun _ => ⟨_, rfl⟩⟩
    | cons e ds => exact ⟨nofun, nofun⟩
  refine ⟨hok, ?_, ?_⟩
  · intro halt
    rw [result_eq hr]
    cases t.defects r.options.maxDepth with
    | nil => exact ⟨nofun, nofun⟩
    | cons e ds =>
        constructor
        · intro h
          cases h
          exact ⟨e, rfl, rfl⟩
        · rintro ⟨e', he, rfl⟩
          cases he
          rfl
  · intro hflaws
    rw [hok, defects_eq_nil_iff]
    exact ⟨fun h => h.2, fun h => ⟨hflaws, h⟩⟩

/-- A name of one segment is reported under a limit that its node fits under, and hidden by the limit
where it does not. -/
theorem result_iff_defects_short :
    let t := expr (.paren (.compound ["a"]))
    (({ options := { maxDepth := 2 } } : Renderer).handlers = {} ∧
        (t.report { options := { maxDepth := 2 } }).result = .error (.error
          (.malformedTree "CompoundIdent" "expected at least 2 segments, got 1"))) ∧
      ({ options := { maxDepth := 1 } } : Renderer).handlers = {} ∧
        (t.report { options := { maxDepth := 1 } }).result =
          .error (.error (.recursionLimitExceeded 1)) := by
  intro t
  refine ⟨⟨rfl, ?_⟩, rfl, ?_⟩
  · exact ((result_iff_defects { options := { maxDepth := 2 } } rfl t).2.1 _).2 ⟨_, rfl, rfl⟩
  · exact ((result_iff_defects { options := { maxDepth := 1 } } rfl t).2.1 _).2 ⟨_, rfl, rfl⟩

end Tree

end TypedSql
