import TypedSql.Renderer
import TypedSql.Proofs.Layout

/-! The tokens of a script: what a run writes, without guards, when nothing fails. A run that is done
has put the tokens into its context one by one. -/

namespace TypedSql

/-- A part of what is written. -/
inductive Token where
  | text (s : String)
  | ident (i : Ident)
  | literal (l : Literal)

mutual

/-- Steps that can fail or look at the run have no tokens. -/
def Step.tokens : Step → List Token
  | .text s => [.text s]
  | .ident i => [.ident i]
  | .literal l => [.literal l]
  | .guarded body => Script.tokens body
  | _ => []

def Script.tokens : List Step → List Token
  | [] => []
  | step :: steps => step.tokens ++ Script.tokens steps

end

theorem Script.tokens_singleton (step : Step) : tokens [step] = step.tokens :=
  List.append_nil _

theorem Script.tokens_append (s t : Script) : tokens (s ++ t) = tokens s ++ tokens t := by
  induction s with
  | nil => rw [List.nil_append, tokens, List.nil_append]
  | cons step steps ih => rw [List.cons_append, tokens, tokens, ih, List.append_assoc]

namespace Context

/-- Writes a token. -/
def put (o : Options) (c : Context) : Token → Context
  | .text s => c.write s
  | .ident i => c.write (Text.quoted '"' i)
  | .literal l => c.literal o l

/-- Writes tokens in their order. -/
def putAll (o : Options) (c : Context) (tokens : List Token) : Context :=
  tokens.foldl (put o) c

variable (o : Options) (c : Context)

@[simp] theorem putAll_nil : c.putAll o [] = c := rfl

@[simp] theorem putAll_cons (token : Token) (tokens : List Token) :
    c.putAll o (token :: tokens) = (c.put o token).putAll o tokens := rfl

@[simp] theorem putAll_append (a b : List Token) :
    c.putAll o (a ++ b) = (c.putAll o a).putAll o b :=
  List.foldl_append

theorem put_depth (token : Token) : (c.put o token).depth = c.depth := by
  cases token with
  | literal l =>
      rw [put, literal]
      cases o.paramsMode <;> rfl
  | _ => rfl

@[simp] theorem putAll_depth (tokens : List Token) : (c.putAll o tokens).depth = c.depth := by
  induction tokens generalizing c with
  | nil => rfl
  | cons token tokens ih => rw [putAll_cons, ih, put_depth]

theorem put_enter (token : Token) : c.enter.put o token = (c.put o token).enter := by
  cases token with
  | literal l =>
      rw [put, put, literal, literal]
      cases o.paramsMode <;> rfl
  | _ => rfl

/-- What is put behind an open guard stays when the guard is closed. -/
theorem leave_putAll_enter (tokens : List Token) :
    (c.enter.putAll o tokens).leave = c.putAll o tokens := by
  induction tokens generalizing c with
  | nil => rfl
  | cons token tokens ih => rw [putAll_cons, putAll_cons, put_enter, ih]

end Context

end TypedSql
