import TypedSql.Proofs.Relabel.Script
import TypedSql.Proofs.Defect

/-! The layouts of relabeled trees. New contents move nothing and break nothing: the tokens are the
same up to their contents, and the defects are the same. -/

namespace TypedSql

variable (ρ : Relabeling)

def Token.relabel : Token → Token
  | text s => text s
  | ident i => ident (ρ.ident i)
  | literal l => literal (ρ.literal l)

mutual

theorem Step.tokens_relabel (step : Step) :
    (step.relabel ρ).tokens = step.tokens.map (Token.relabel ρ) := by
  cases step with
  | guarded body =>
      rw [Step.relabel, Step.tokens, Step.tokens]
      exact Script.tokens_relabel body
  | _ => rfl

theorem Script.tokens_relabel (s : List Step) :
    Script.tokens (Script.relabel ρ s) = (Script.tokens s).map (Token.relabel ρ) := by
  cases s with
  | nil => rfl
  | cons step steps =>
      rw [Script.relabel, Script.tokens, Script.tokens, Step.tokens_relabel step,
        Script.tokens_relabel steps, List.map_append]

end

namespace Site

/-- The site with its contents relabeled. -/
def relabel : Site → Site
  | ident i => ident (ρ.ident i)
  | literal l => literal (ρ.literal l)
  | site => site

theorem nest_relabel (inside : List Site) :
    (nest inside).map (relabel ρ) = nest (inside.map (relabel ρ)) := by
  have hsink : relabel ρ ∘ sink 1 = sink 1 ∘ relabel ρ := by
    funext site
    cases site <;> rfl
  rw [nest, List.map_cons, List.map_map, hsink, nest, List.map_map]
  rfl

theorem defects_relabel (limit depth : Nat) (sites : List Site) :
    defects limit depth (sites.map (relabel ρ)) = defects limit depth sites := by
  rw [defects, List.filterMap_map, defects]
  congr 1
  funext site
  cases site <;> rfl

end Site

theorem Script.Leads.relabel {s : Script} (h : Leads s) : Leads (Script.relabel ρ s) := by
  induction s with
  | nil => exact h
  | cons step steps ih =>
      cases step with
      | text s => exact ⟨h.1, fun hs => ih (h.2 hs)⟩
      | _ => exact h.elim

namespace Layout

variable {sites sites' : List Site} {s s' : Script}

theorem relabel (h : Layout sites s) :
    Layout (sites.map (Site.relabel ρ)) (Script.relabel ρ s) := by
  induction h with
  | nil => exact .nil
  | text hs _ ih => exact ih.text hs
  | operator _ ih => exact ih.operator
  | ident hl _ ih => exact ih.ident (hl.relabel ρ)
  | literal hl _ ih => exact ih.literal (hl.relabel ρ)
  | guarded hl _ _ ihbody ih =>
      rw [List.map_append, Site.nest_relabel]
      exact guarded (hl.relabel ρ) ihbody ih
  | short _ ih => exact ih.short
  | unscaled _ ih => exact ih.unscaled
  | node _ ih => exact ih.node

/-- Layouts of scripts that are the same up to their contents are alike in having no defect, since
that is whether the relabeled script runs to its end. -/
theorem defects_eq_nil_of_relabel (h : Layout sites s) (h' : Layout sites' s')
    (hs : Script.relabel ρ s = Script.relabel ρ s') {limit : Nat}
    (hnil : Site.defects limit 0 sites = []) : Site.defects limit 0 sites' = [] := by
  let o : Options := { maxDepth := limit }
  let call : Caller := fun family n c => .failed (.unsupportedExtension family n.kind) c
  have hcall : call.Refuses := fun _ _ _ => rfl
  have hdone := ((h.relabel ρ).run_eq_done (o := o) hcall (c := {})).2
    ⟨(Site.defects_relabel ρ limit 0 sites).trans hnil, rfl⟩
  rw [hs] at hdone
  have hnil' := (((h'.relabel ρ).run_eq_done (o := o) hcall).1 hdone).1
  rwa [Site.defects_relabel] at hnil'

end Layout

end TypedSql
