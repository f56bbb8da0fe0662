import TypedSql.Proofs.Sequence
import TypedSql.Proofs.Token

/-! The acts of a run: what it does, in order, also where it fails in the end or is cut off. Handlers
act on the context of the node that calls them, so the acts of a call stand where the call stands. -/

namespace TypedSql

inductive Act where
  /-- A token is put into the context. -/
  | put (token : Token)
  /-- A guard is opened within the limit, and its body starts at a depth. -/
  | enter (depth : Nat)
  /-- A guard is closed, at the depth of its body. -/
  | leave (depth : Nat)
  /-- A guard is beyond the limit. -/
  | refuse
  /-- The handler of a node starts. -/
  | call (family : String) (node : Extension)

namespace Act

def token? : Act → Option Token
  | put token => some token
  | _ => none

def node? : Act → Option (String × Extension)
  | call family node => some (family, node)
  | _ => none

end Act

namespace Outcome

/-- The context that a run leaves, whether it failed or not. -/
def context? : Outcome → Option Context
  | done c => some c
  | failed _ c => some c
  | unfinished => none

/-- The acts that follow an outcome that is done. -/
def ifDone (outcome : Outcome) (acts : Context → List Act) : List Act :=
  match outcome with
  | done c => acts c
  | _ => []

/-- The acts that follow an outcome that is failed. -/
def ifFailed (outcome : Outcome) (acts : RenderError → Context → List Act) : List Act :=
  match outcome with
  | failed e c => acts e c
  | _ => []

theorem ifDone_failed (e : RenderError) (c : Context) (acts : Context → List Act) :
    (failed e c).ifDone acts = [] := rfl

theorem ifFailed_done (c : Context) (acts : RenderError → Context → List Act) :
    (done c).ifFailed acts = [] := rfl

/-- The closing of the guard of a body with an outcome. -/
def closing (outcome : Outcome) : List Act :=
  outcome.context?.toList.map fun c => .leave c.depth

theorem filterMap_closing {α : Type} {f : Act → Option α} (hf : ∀ depth, f (.leave depth) = none)
    (outcome : Outcome) : outcome.closing.filterMap f = [] := by
  rw [closing, List.filterMap_map, List.filterMap_eq_nil_iff]
  exact fun c _ => hf c.depth

end Outcome

/-- The acts of the handler of a node, given the family of the node's place. -/
abbrev CallActs := String → Extension → Context → List Act

mutual

/-- The acts of one step. -/
def Step.acts (o : Options) (call : Caller) (inside : CallActs) (c : Context) : Step → List Act
  | .text s => [.put (.text s)]
  | .ident i => [.put (.ident i)]
  | .literal l => [.put (.literal l)]
  | .guarded body =>
    if o.maxDepth < c.enter.depth then [.refuse]
    else .enter c.enter.depth :: (Script.acts o call inside c.enter body
      ++ (Script.run o call c.enter body).closing)
  | .custom family node => inside family node c
  | .fail _ => []
  | .attempt body rescue =>
    Script.acts o call inside c body
      ++ (Script.run o call c body).ifFailed fun e c => Script.acts o call inside c (rescue e)
  | .inspect next => Script.acts o call inside c (next ⟨o, c.sql⟩)

/-- The acts of steps up to the first one that is not done. -/
def Script.acts (o : Options) (call : Caller) (inside : CallActs) (c : Context) :
    List Step → List Act
  | [] => []
  | step :: steps => step.acts o call inside c
    ++ (step.run o call c).ifDone fun c => Script.acts o call inside c steps

end

/-- The acts of the call of a node: its handler starts, and then they are those of the script of the
handler. -/
def Registry.acts (r : Registry) (o : Options) : (calls : Nat) → CallActs
  | calls, family, node, c =>
    match r.find? node.kind with
    | none => []
    | some handler =>
      .call family node :: match calls with
        | 0 => []
        | calls + 1 => Script.acts o (r.call o calls) (r.acts o calls) c (handler node)

namespace Registry

variable {r : Registry} {node : Extension} {handler : Handler} (o : Options) (family : String)
  (c : Context)

theorem acts_missing (calls : Nat) (h : r.find? node.kind = none) :
    r.acts o calls family node c = [] := by
  rw [acts.eq_def]
  dsimp only
  rw [h]

theorem acts_exhausted (h : r.find? node.kind = some handler) :
    r.acts o 0 family node c = [.call family node] := by
  rw [acts.eq_def]
  dsimp only
  rw [h]

theorem acts_found (calls : Nat) (h : r.find? node.kind = some handler) :
    r.acts o (calls + 1) family node c =
      .call family node :: Script.acts o (r.call o calls) (r.acts o calls) c (handler node) := by
  rw [acts.eq_def]
  dsimp only
  rw [h]

/-- A property of outcomes and acts holds of all calls if it holds where no handler is found, where one
call too many is open and, given that it holds of all calls from inside, of the script of a handler. -/
theorem call_induction (r : Registry) (o : Options)
    {P : (calls : Nat) → String → Extension → Context → Outcome → List Act → Prop}
    (missing : ∀ calls family node c, r.find? node.kind = none →
      P calls family node c (.failed (.unsupportedExtension family node.kind) c) [])
    (exhausted : ∀ family node c handler, r.find? node.kind = some handler →
      P 0 family node c .unfinished [.call family node])
    (found : ∀ calls, (∀ family node c,
        P calls family node c (r.call o calls family node c) (r.acts o calls family node c)) →
      ∀ family node c handler, r.find? node.kind = some handler →
        P (calls + 1) family node c (Script.run o (r.call o calls) c (handler node))
          (.call family node :: Script.acts o (r.call o calls) (r.acts o calls) c (handler node)))
    (calls : Nat) (family : String) (node : Extension) (c : Context) :
    P calls family node c (r.call o calls family node c) (r.acts o calls family node c) := by
  induction calls generalizing family node c with
  | zero =>
      cases hfind : r.find? node.kind with
      | none =>
          rw [call_missing o family c 0 hfind, acts_missing o family c 0 hfind]
          exact missing 0 family node c hfind
      | some handler =>
          rw [call_exhausted o family c hfind, acts_exhausted o family c hfind]
          exact exhausted family node c handler hfind
  | succ calls ih =>
      cases hfind : r.find? node.kind with
      | none =>
          rw [call_missing o family c _ hfind, acts_missing o family c _ hfind]
          exact missing (calls + 1) family node c hfind
      | some handler =>
          rw [call_found o family c calls hfind, acts_found o family c calls hfind]
          exact found calls ih family node c handler hfind

end Registry

/-- The acts of a renderer that runs a script on a context. -/
def Renderer.acts (r : Renderer) (c : Context) (s : Script) : List Act :=
  Script.acts r.options (r.handlers.call r.options r.callLimit)
    (r.handlers.acts r.options r.callLimit) c s

end TypedSql
