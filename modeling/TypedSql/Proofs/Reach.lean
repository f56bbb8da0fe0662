import TypedSql.Proofs.Act
import TypedSql.Proofs.Tree

/-! Which handlers a rendering can reach: those of the nodes in its tree, and those of the nodes that
they hand on in turn. Other handlers do not matter. Registries that find the same handlers for all
kinds that can be reached render a tree alike, whatever else was registered with them and in
whatever order. -/

namespace TypedSql

/-! ### Kinds that occur -/

/-- The sites in what a node carries. -/
def Payload.sites : Payload → List Site
  | unit => []
  | text _ => []
  | expr e => e.sites
  | query q => q.sites

/-- The node stands at one of the sites, or somewhere in what a node among them carries. -/
inductive Site.Bears : List Site → Extension → Prop
  | here {sites : List Site} {family : String} {n : Extension} (h : node family n ∈ sites) :
      Bears sites n
  | inside {sites : List Site} {family : String} {m n : Extension} (h : node family m ∈ sites)
      (hn : Bears m.payload.sites n) : Bears sites n

/-- The node and all nodes in what it carries are of the kinds. -/
def Extension.Within (kinds : String → Prop) (n : Extension) : Prop :=
  kinds n.kind ∧ ∀ m, Site.Bears n.payload.sites m → kinds m.kind

theorem Site.within_of_mem {kinds : String → Prop} {sites : List Site}
    (h : ∀ n, Bears sites n → kinds n.kind) {family : String} {n : Extension}
    (hn : node family n ∈ sites) : n.Within kinds :=
  ⟨h n (.here hn), fun m hm => h m (.inside hn hm)⟩

/-! ### Nodes that a script calls for -/

mutual

/-- Whatever a run of the step has written by then and whatever fails in it, the nodes that it hands
to handlers have the property. -/
def Step.CallsOnly (o : Options) (p : Extension → Prop) : Step → Prop
  | .guarded body => Script.CallsOnly o p body
  | .custom _ node => p node
  | .attempt body rescue => Script.CallsOnly o p body ∧ ∀ e, Script.CallsOnly o p (rescue e)
  | .inspect next => ∀ sql, Script.CallsOnly o p (next ⟨o, sql⟩)
  | _ => True

def Script.CallsOnly (o : Options) (p : Extension → Prop) : List Step → Prop
  | [] => True
  | step :: steps => step.CallsOnly o p ∧ Script.CallsOnly o p steps

end

/-- A tree calls for the nodes at its sites and for no others. -/
theorem Layout.callsOnly {o : Options} {p : Extension → Prop} {sites : List Site} {s : Script}
    (h : Layout sites s) (hnodes : ∀ family n, Site.node family n ∈ sites → p n) :
    Script.CallsOnly o p s := by
  induction h with
  | nil => exact trivial
  | text _ _ ih => exact ⟨trivial, ih hnodes⟩
  | operator _ ih | ident _ _ ih | literal _ _ ih | short _ ih | unscaled _ ih =>
      exact ⟨trivial, ih fun family n hn => hnodes family n (List.mem_cons_of_mem _ hn)⟩
  | guarded _ _ _ ihbody ih =>
      constructor
      · exact ihbody fun family n hn =>
          hnodes family n (List.mem_append_left _ (Site.node_mem_nest hn))
      · exact ih fun family n hn => hnodes family n (List.mem_append_right _ hn)
  | node _ ih =>
      exact ⟨hnodes _ _ List.mem_cons_self,
        ih fun family n hn => hnodes family n (List.mem_cons_of_mem _ hn)⟩

/-- The callers do the same for all nodes with the property. -/
def Caller.Agrees (p : Extension → Prop) (call call' : Caller) : Prop :=
  ∀ family n c, p n → call family n c = call' family n c

mutual

theorem Step.run_agrees {o : Options} {p : Extension → Prop} {call call' : Caller}
    (h : call.Agrees p call') (step : Step) (hstep : step.CallsOnly o p) (c : Context) :
    step.run o call c = step.run o call' c := by
  cases step with
  | guarded body =>
      rw [Step.CallsOnly] at hstep
      rw [Step.run, Step.run, Script.run_agrees h body hstep c.enter]
  | custom family node =>
      rw [Step.CallsOnly] at hstep
      rw [Step.run, Step.run]
      exact h family node c hstep
  | attempt body rescue =>
      rw [Step.CallsOnly] at hstep
      have hrescue (e : RenderError) (c : Context) :
          Script.run o call c (rescue e) = Script.run o call' c (rescue e) :=
        Script.run_agrees h (rescue e) (hstep.2 e) c
      rw [Step.run_attempt, Step.run_attempt, Script.run_agrees h body hstep.1 c]
      simp only [hrescue]
  | inspect next =>
      rw [Step.CallsOnly] at hstep
      rw [Step.run, Step.run]
      exact Script.run_agrees h _ (hstep c.sql) c
  | text s | ident i | literal l | fail e => rw [Step.run, Step.run]

theorem Script.run_agrees {o : Options} {p : Extension → Prop} {call call' : Caller}
    (h : call.Agrees p call') (s : List Step) (hs : Script.CallsOnly o p s) (c : Context) :
    Script.run o call c s = Script.run o call' c s := by
  cases s with
  | nil => rw [Script.run_nil, Script.run_nil]
  | cons step steps =>
      rw [Script.CallsOnly] at hs
      have hrest (c : Context) : Script.run o call c steps = Script.run o call' c steps :=
        Script.run_agrees h steps hs.2 c
      rw [Script.run_cons, Script.run_cons, Step.run_agrees h step hs.1 c]
      simp only [hrest]

end

/-! ### Handlers that stay within some kinds -/

namespace Registry

/-- Given nodes of the kinds that carry no others, the handlers hand on only such nodes. -/
def ClosedUnder (r : Registry) (o : Options) (kinds : String → Prop) : Prop :=
  ∀ n, n.Within kinds → ∀ handler, r.find? n.kind = some handler →
    Script.CallsOnly o (Extension.Within kinds) (handler n)

variable {r r' : Registry} {o : Options} {kinds : String → Prop}

/-- A call from inside of a handler is again one for a node of the kinds, with one call less. -/
theorem ClosedUnder.agrees (hr : r.ClosedUnder o kinds)
    (h : ∀ kind, kinds kind → r.find? kind = r'.find? kind) (calls : Nat) :
    (r.call o calls).Agrees (Extension.Within kinds) (r'.call o calls) := by
  refine r.call_induction o (P := fun calls family n c outcome _ =>
    n.Within kinds → outcome = r'.call o calls family n c) ?_ ?_ ?_ calls
  · intro calls family n c hfind hn
    rw [h n.kind hn.1] at hfind
    rw [call_missing o family c calls hfind]
  · intro family n c handler hfind hn
    rw [h n.kind hn.1] at hfind
    rw [call_exhausted o family c hfind]
  · intro calls ih family n c handler hfind hn
    have hcalls := hr n hn handler hfind
    rw [h n.kind hn.1] at hfind
    rw [call_found o family c calls hfind]
    exact Script.run_agrees ih (handler n) hcalls c

end Registry

/-- A handler that does nothing but render the expression of its node stays within the kinds of the
node. -/
theorem Extension.Within.callsOnly_exprScript {kinds : String → Prop} {n : Extension}
    (hn : n.Within kinds) (o : Options) :
    Script.CallsOnly o (Extension.Within kinds) n.exprScript := by
  rw [Extension.exprScript]
  split
  · rename_i e he
    have hsites : ∀ m, Site.Bears e.sites m → kinds m.kind := by
      intro m hm
      refine hn.2 m ?_
      rwa [he]
    exact e.layout.callsOnly fun family m hm => Site.within_of_mem hsites hm
  · exact ⟨trivial, trivial⟩

namespace Tree

/-- Handlers that cannot be reached do not matter. Take some kinds with all those of the nodes in a
tree, also of the nodes that these carry, and for a handler of one of the kinds with all those of the
nodes that it hands on. If two registries find the same handlers for these kinds, the tree renders
alike with both: to the same text and values or to the same error, and with the same events. Of
several handlers that were registered for one kind only the last one counts. -/
theorem report_eq_of_agree (o : Options) (calls : Nat) (kinds : String → Prop) (t : Tree)
    (ht : ∀ n, Site.Bears t.sites n → kinds n.kind) :
    (∀ r r' : Registry, r.ClosedUnder o kinds →
      (∀ kind, kinds kind → r.find? kind = r'.find? kind) →
        t.report ⟨o, r, calls⟩ = t.report ⟨o, r', calls⟩) ∧
    ∀ entries entries' : List (String × Handler), (Registry.ofList entries).ClosedUnder o kinds →
      (∀ kind, kinds kind → entries.reverse.lookup kind = entries'.reverse.lookup kind) →
        t.report ⟨o, .ofList entries, calls⟩ = t.report ⟨o, .ofList entries', calls⟩ := by
  have hreport (r r' : Registry) (hr : r.ClosedUnder o kinds)
      (h : ∀ kind, kinds kind → r.find? kind = r'.find? kind) :
      t.report ⟨o, r, calls⟩ = t.report ⟨o, r', calls⟩ := by
    have hcalls : Script.CallsOnly o (Extension.Within kinds) t.script :=
      t.layout.callsOnly fun _ _ hn => Site.within_of_mem ht hn
    have hrun : Renderer.run ⟨o, r, calls⟩ {} t.script = Renderer.run ⟨o, r', calls⟩ {} t.script :=
      Script.run_agrees (hr.agrees h calls) t.script hcalls {}
    rw [report_eq, report_eq, Renderer.report, Renderer.report, Renderer.render, Renderer.render,
      hrun]
  refine ⟨hreport, ?_⟩
  intro entries entries' hentries h
  refine hreport _ _ hentries fun kind hkind => ?_
  rw [Registry.find?_ofList, Registry.find?_ofList, h kind hkind]

/-- A handler that renders a node of another kind and then what its own node carries. One registry has
a failing handler that was replaced and a handler of a kind that is not reached. -/
theorem report_eq_of_agree_replaced :
    let inner : Extension := ⟨"inner", 1, .unit⟩
    let one : Handler := fun _ => [.literal (.integer 1)]
    let outer : Handler := fun n => .custom "Expr" inner :: .text " = " :: n.exprScript
    let entries : List (String × Handler) := [("inner", fun _ => [.fail .formatFailure]),
      ("outer", outer), ("other", one), ("inner", one)]
    let entries' : List (String × Handler) := [("inner", one), ("outer", outer)]
    let r := (({} : Registry).register "inner" one).register "outer" outer
    let o : Options := { paramsMode := true }
    let kinds (kind : String) := kind = "outer" ∨ kind = "inner"
    let t := expr (.custom ⟨"outer", 0, .expr (.paren (.custom inner))⟩)
    (∀ n, Site.Bears t.sites n → kinds n.kind) ∧ (Registry.ofList entries).ClosedUnder o kinds ∧
      (∀ kind, kinds kind → entries.reverse.lookup kind = entries'.reverse.lookup kind) ∧
      (∀ kind, kinds kind → (Registry.ofList entries).find? kind = r.find? kind) ∧
      t.report ⟨o, .ofList entries, 2⟩ = t.report ⟨o, .ofList entries', 2⟩ ∧
      t.report ⟨o, .ofList entries, 2⟩ = t.report ⟨o, r, 2⟩ ∧
      (t.report ⟨o, r, 2⟩).result = .ok ⟨"$1 = ($2)", [.integer 1, .integer 1]⟩ := by
  intro inner one outer entries entries' r o kinds t
  have ht (n : Extension) (hn : Site.Bears t.sites n) : kinds n.kind := by
    have houter (family : String) (m : Extension) (h : Site.node family m ∈ t.sites) :
        m = ⟨"outer", 0, .expr (.paren (.custom inner))⟩ := by
      cases h with
      | tail _ h =>
          cases List.mem_singleton.1 h
          rfl
    have hinner (family : String) (m : Extension)
        (h : Site.node family m ∈ (Expr.paren (.custom inner)).sites) : m = inner := by
      cases h with
      | tail _ h =>
          cases h with
          | tail _ h =>
              cases List.mem_singleton.1 h
              rfl
    rcases hn with h | ⟨h, hn⟩
    · exact .inl (congrArg _ (houter _ _ h))
    · rw [houter _ _ h] at hn
      rcases hn with h | ⟨h, hn⟩
      · exact .inr (congrArg _ (hinner _ _ h))
      · rw [hinner _ _ h] at hn
        rcases hn with h | h <;> cases h
  have hwithin : inner.Within kinds := by
    refine ⟨.inr rfl, fun m hm => ?_⟩
    cases hm with
    | here h => cases h
    | inside h _ => cases h
  have hclosed : (Registry.ofList entries).ClosedUnder o kinds := by
    intro n hn handler hfind
    rcases hn.1 with hkind | hkind
    · rw [hkind] at hfind
      cases hfind
      exact ⟨hwithin, trivial, hn.callsOnly_exprScript o⟩
    · rw [hkind] at hfind
      cases hfind
      exact ⟨trivial, trivial⟩
  have hlookup (kind : String) (hkind : kinds kind) :
      entries.reverse.lookup kind = entries'.reverse.lookup kind := by
    rcases hkind with rfl | rfl <;> rfl
  have hfind (kind : String) (hkind : kinds kind) :
      (Registry.ofList entries).find? kind = r.find? kind := by
    rcases hkind with rfl | rfl <;> rfl
  -- Only in closed terms the numbers of placeholders are evaluated.
  have hresult : (t.report ⟨o, r, 2⟩).result = .ok ⟨"$1 = ($2)", [.integer 1, .integer 1]⟩ := by
    subst t r outer one inner o
    rfl
  obtain ⟨hany, hlists⟩ := report_eq_of_agree o 2 kinds t ht
  exact ⟨ht, hclosed, hlookup, hfind, hlists entries entries' hclosed hlookup,
    hany _ r hclosed hfind, hresult⟩

end Tree

end TypedSql
