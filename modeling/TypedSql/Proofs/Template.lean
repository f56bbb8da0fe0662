import TypedSql.Proofs.Act
import TypedSql.Proofs.Composition

/-! Templates. The template of a script is what a run of it writes, with a gap for every dialect
node. Handlers that only put tokens fill the gaps one by one and change nothing else, so a script
that opens its guards within the limit always runs to its end. -/

namespace TypedSql

/-- A part of a template. -/
inductive Item where
  | token (token : Token)
  | node (family : String) (node : Extension)

namespace Item

def node? : Item → Option (String × Extension)
  | token _ => none
  | node family n => some (family, n)

/-- The tokens of a part, given those that are put for a node. -/
def filled (fill : Extension → List Token) : Item → List Token
  | token t => [t]
  | node _ n => fill n

end Item

mutual

def Step.items : Step → List Item
  | .text s => [.token (.text s)]
  | .ident i => [.token (.ident i)]
  | .literal l => [.token (.literal l)]
  | .guarded body => Script.items body
  | .custom family node => [.node family node]
  | _ => []

/-- The template of a script. -/
def Script.items : List Step → List Item
  | [] => []
  | step :: steps => step.items ++ Script.items steps

end

mutual

/-- The step only writes and calls, and its guards are within the limit below `depth` others. -/
def Step.Fits (limit depth : Nat) : Step → Prop
  | .guarded body => depth < limit ∧ Script.Fits limit (depth + 1) body
  | .fail _ | .attempt _ _ | .inspect _ => False
  | _ => True

def Script.Fits (limit depth : Nat) : List Step → Prop
  | [] => True
  | step :: steps => step.Fits limit depth ∧ Script.Fits limit depth steps

end

namespace Script

/-- The dialect nodes of a script, each with the family of its place. -/
def nodes (s : Script) : List (String × Extension) :=
  (items s).filterMap Item.node?

/-- The tokens of a script, given those that are put for a node. -/
def filled (fill : Extension → List Token) (s : Script) : List Token :=
  (items s).flatMap (Item.filled fill)

variable (fill : Extension → List Token)

theorem items_append (s t : Script) : items (s ++ t) = items s ++ items t := by
  induction s with
  | nil => rw [List.nil_append, items, List.nil_append]
  | cons step steps ih => rw [List.cons_append, items, items, ih, List.append_assoc]

theorem nodes_cons (step : Step) (steps : Script) :
    nodes (step :: steps) = step.items.filterMap Item.node? ++ nodes steps := by
  rw [nodes, items, List.filterMap_append, nodes]

theorem filled_cons (step : Step) (steps : Script) : filled fill (step :: steps) =
    step.items.flatMap (Item.filled fill) ++ filled fill steps := by
  rw [filled, items, List.flatMap_append, filled]

theorem fits_append {limit depth : Nat} {s t : Script} :
    Fits limit depth (s ++ t) ↔ Fits limit depth s ∧ Fits limit depth t := by
  induction s with
  | nil =>
      rw [List.nil_append, Fits, true_and]
  | cons step steps ih => rw [List.cons_append, Fits, Fits, ih, and_assoc]

theorem fits_singleton {limit depth : Nat} {step : Step} :
    Fits limit depth [step] ↔ step.Fits limit depth := by
  rw [Fits, Fits, and_true]

end Script

mutual

theorem Step.Fits.mono {limit depth depth' : Nat} (hdepth : depth' ≤ depth) {step : Step}
    (h : step.Fits limit depth) : step.Fits limit depth' := by
  cases step with
  | guarded body =>
      rw [Step.Fits] at h ⊢
      exact ⟨Nat.lt_of_le_of_lt hdepth h.1, Script.Fits.mono (Nat.succ_le_succ hdepth) h.2⟩
  | _ => exact h

/-- What fits below some guards fits below fewer. -/
theorem Script.Fits.mono {limit depth depth' : Nat} (hdepth : depth' ≤ depth) {s : List Step}
    (h : Script.Fits limit depth s) : Script.Fits limit depth' s := by
  cases s with
  | nil => exact h
  | cons step steps =>
      rw [Script.Fits] at h ⊢
      exact ⟨Step.Fits.mono hdepth h.1, Script.Fits.mono hdepth h.2⟩

end

/-- For each of the nodes the caller puts the tokens that fill its gap. -/
def Caller.Fills (o : Options) (fill : Extension → List Token) (nodes : List (String × Extension))
    (call : Caller) : Prop :=
  ∀ p ∈ nodes, ∀ c, call p.1 p.2 c = .done (c.putAll o (fill p.2))

/-- For each of the nodes its own handler starts, and no other. -/
def CallActs.Counts (nodes : List (String × Extension)) (inside : CallActs) : Prop :=
  ∀ p ∈ nodes, ∀ c, (inside p.1 p.2 c).filterMap Act.node? = [p]

mutual

theorem Step.run_filled {o : Options} {call : Caller} {fill : Extension → List Token} {step : Step}
    {c : Context} (hfits : step.Fits o.maxDepth c.depth)
    (hcall : call.Fills o fill (step.items.filterMap Item.node?)) :
    step.run o call c = .done (c.putAll o (step.items.flatMap (Item.filled fill))) := by
  cases step with
  | guarded body =>
      rw [Step.Fits] at hfits
      have hlimit : ¬ o.maxDepth < c.enter.depth := Nat.not_lt.2 hfits.1
      have hbody : Script.run o call c.enter body = .done (c.enter.putAll o (Script.filled fill body)) :=
        Script.run_filled hfits.2 hcall
      rw [Step.run, if_neg hlimit, hbody, Outcome.leave, Context.leave_putAll_enter, Step.items,
        Script.filled]
  | custom family node =>
      rw [Step.run, Step.items, List.flatMap_singleton]
      exact hcall (family, node) (by rw [Step.items]; exact List.mem_singleton_self _) c
  | fail e => exact hfits.elim
  | attempt body rescue => exact hfits.elim
  | inspect next => exact hfits.elim
  | _ => rfl

/-- A script that fits runs to its end and puts its filled template. -/
theorem Script.run_filled {o : Options} {call : Caller} {fill : Extension → List Token}
    {s : List Step} {c : Context} (hfits : Script.Fits o.maxDepth c.depth s)
    (hcall : call.Fills o fill (Script.nodes s)) :
    Script.run o call c s = .done (c.putAll o (Script.filled fill s)) := by
  cases s with
  | nil =>
      rw [Script.run_nil, Script.filled, Script.items]
      rfl
  | cons step steps =>
      rw [Script.Fits] at hfits
      rw [Script.nodes_cons] at hcall
      have hstep := Step.run_filled hfits.1 fun p hp => hcall p (List.mem_append_left _ hp)
      have hdepth : Script.Fits o.maxDepth
          (c.putAll o (step.items.flatMap (Item.filled fill))).depth steps := by
        rw [Context.putAll_depth]
        exact hfits.2
      have hsteps := Script.run_filled hdepth fun p hp => hcall p (List.mem_append_right _ hp)
      rw [Script.run_cons, hstep, Outcome.andThen, hsteps, Script.filled_cons, Context.putAll_append]

end

mutual

theorem Step.acts_filled {o : Options} {call : Caller} {fill : Extension → List Token}
    {inside : CallActs} {step : Step} {c : Context} (hfits : step.Fits o.maxDepth c.depth)
    (hcall : call.Fills o fill (step.items.filterMap Item.node?))
    (hinside : inside.Counts (step.items.filterMap Item.node?)) :
    (step.acts o call inside c).filterMap Act.node? = step.items.filterMap Item.node? := by
  cases step with
  | guarded body =>
      rw [Step.Fits] at hfits
      have hlimit : ¬ o.maxDepth < c.enter.depth := Nat.not_lt.2 hfits.1
      have hbody := Script.acts_filled (c := c.enter) hfits.2 hcall hinside
      rw [Step.acts, if_neg hlimit, List.filterMap_cons_none (by rfl), List.filterMap_append,
        Outcome.filterMap_closing (fun _ => rfl), List.append_nil, hbody]
      rfl
  | custom family node =>
      rw [Step.acts, Step.items]
      exact hinside (family, node) (by rw [Step.items]; exact List.mem_singleton_self _) c
  | fail e => exact hfits.elim
  | attempt body rescue => exact hfits.elim
  | inspect next => exact hfits.elim
  | _ => rfl

/-- The handlers that start are those of the nodes in the template, in the same order. -/
theorem Script.acts_filled {o : Options} {call : Caller} {fill : Extension → List Token}
    {inside : CallActs} {s : List Step} {c : Context} (hfits : Script.Fits o.maxDepth c.depth s)
    (hcall : call.Fills o fill (Script.nodes s)) (hinside : inside.Counts (Script.nodes s)) :
    (Script.acts o call inside c s).filterMap Act.node? = Script.nodes s := by
  cases s with
  | nil => rfl
  | cons step steps =>
      rw [Script.Fits] at hfits
      rw [Script.nodes_cons] at hcall hinside ⊢
      have hrun := Step.run_filled hfits.1 fun p hp => hcall p (List.mem_append_left _ hp)
      have hstep := Step.acts_filled hfits.1 (fun p hp => hcall p (List.mem_append_left _ hp))
        fun p hp => hinside p (List.mem_append_left _ hp)
      have hdepth : Script.Fits o.maxDepth
          (c.putAll o (step.items.flatMap (Item.filled fill))).depth steps := by
        rw [Context.putAll_depth]
        exact hfits.2
      have hsteps := Script.acts_filled hdepth (fun p hp => hcall p (List.mem_append_right _ hp))
        fun p hp => hinside p (List.mem_append_right _ hp)
      rw [Script.acts, List.filterMap_append, hstep, hrun, Outcome.ifDone, hsteps]

end

namespace Carries

variable {α : Type} {part whole : α → Script}

/-- The template around a part does not depend on it. -/
theorem items (h : Carries part whole) :
    ∃ pre post, ∀ n, Script.items (whole n) = pre ++ (Script.items (part n) ++ post) := by
  have hguard (s : Script) : Script.items [.guarded s] = Script.items s := by
    rw [Script.items, Step.items, Script.items, List.append_nil]
  exact h.collect Script.items_append hguard

/-- Where the whole fits, the part in it does, below the guards around it. -/
theorem fits_part (h : Carries part whole) {limit depth : Nat} {n : α}
    (hfits : Script.Fits limit depth (whole n)) :
    ∃ depth', depth ≤ depth' ∧ Script.Fits limit depth' (part n) := by
  induction h generalizing depth with
  | here => exact ⟨depth, Nat.le_refl depth, hfits⟩
  | beside pre post _ ih => exact ih (Script.fits_append.1 (Script.fits_append.1 hfits).2).1
  | within _ ih =>
      rw [Script.fits_singleton, Step.Fits] at hfits
      obtain ⟨depth', hdepth, hpart⟩ := ih hfits.2
      exact ⟨depth', Nat.le_of_succ_le hdepth, hpart⟩

/-- A part that fits wherever another one does can stand in its place. -/
theorem fits_of_part (h : Carries part whole) {m n : α}
    (hpart : ∀ limit depth, Script.Fits limit depth (part m) → Script.Fits limit depth (part n))
    {limit depth : Nat} (hfits : Script.Fits limit depth (whole m)) :
    Script.Fits limit depth (whole n) := by
  induction h generalizing depth with
  | here => exact hpart limit depth hfits
  | beside pre post _ ih =>
      rw [Script.fits_append, Script.fits_append] at hfits ⊢
      exact ⟨hfits.1, ih hfits.2.1, hfits.2.2⟩
  | within _ ih =>
      rw [Script.fits_singleton, Step.Fits] at hfits ⊢
      exact ⟨hfits.1, ih hfits.2⟩

end Carries

end TypedSql
