import TypedSql.Context
import TypedSql.Registry

/-! Running scripts. A run works on one context from its first step to its last, and handlers run on
the context of the node that called them. Handlers may call each other without end, so a run is
given a number of calls that may be open at once; a run that needs more has no outcome of its own. -/

namespace TypedSql

/-- How a run ends. -/
inductive Outcome where
  | done (c : Context)
  /-- The run failed, and the context is as the failure left it. -/
  | failed (e : RenderError) (c : Context)
  /-- More calls of handlers were open than allowed. -/
  | unfinished
  deriving Inhabited

/-- What runs the handler of a node, given the family of the node's place. -/
abbrev Caller := String → Extension → Context → Outcome

/-- A literal: in parameters mode its value is bound, and else its text is written. -/
def Context.literal (o : Options) (l : Literal) (c : Context) : Context :=
  if o.paramsMode then c.bind (.ofLiteral l) else c.write (l.sql o.escaping)

/-- The end of a guarded body. It closes the guard whether the body failed or not. -/
def Outcome.leave : Outcome → Outcome
  | done c => done c.leave
  | failed e c => failed e c.leave
  | unfinished => unfinished

mutual

/-- Runs one step. A guard beyond the limit fails and is not closed again. -/
def Step.run (o : Options) (call : Caller) (c : Context) : Step → Outcome
  | .text s => .done (c.write s)
  | .ident i => .done (c.write (Text.quoted '"' i))
  | .literal l => .done (c.literal o l)
  | .guarded body =>
    if o.maxDepth < c.enter.depth then .failed (.recursionLimitExceeded o.maxDepth) c.enter
    else (Script.run o call c.enter body).leave
  | .custom family node => call family node c
  | .fail e => .failed e c
  | .attempt body rescue =>
    match Script.run o call c body with
    | .failed e c => Script.run o call c (rescue e)
    | outcome => outcome
  | .inspect next => Script.run o call c (next ⟨o, c.sql⟩)

/-- Runs steps up to the first one that is not done. -/
def Script.run (o : Options) (call : Caller) (c : Context) : List Step → Outcome
  | [] => .done c
  | step :: steps =>
    match step.run o call c with
    | .done c => Script.run o call c steps
    | outcome => outcome

end

/-- Runs the handler of a node, with at most `calls` calls open at once. -/
def Registry.call (r : Registry) (o : Options) : (calls : Nat) → Caller
  | calls, family, node, c =>
    match r.find? node.kind with
    | none => .failed (.unsupportedExtension family node.kind) c
    | some handler =>
      match calls with
      | 0 => .unfinished
      | calls + 1 => Script.run o (r.call o calls) c (handler node)

end TypedSql
