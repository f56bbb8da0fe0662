import TypedSql.Proofs.Site

/-! How a script lays out the sites of a tree. Between the sites stand fixed texts without quotes
and dollar signs, and a site whose text could run on is followed by a separator. Every tree is laid
out by its script. -/

namespace TypedSql

namespace Text

/-- Characters that begin or end a token of another kind than a keyword. -/
def isMark (c : Char) : Bool :=
  c = '"' || c = '\'' || c = '$'

/-- No character of the text begins a quoted token or a placeholder. -/
def Plain (s : String) : Prop :=
  ∀ c ∈ s.toList, isMark c = false

instance (s : String) : Decidable (Plain s) :=
  List.decidableBAll (fun c => isMark c = false) s.toList

/-- Characters that end every token before them. -/
def isSeparator (c : Char) : Bool :=
  c = ' ' || c = ',' || c = '.' || c = '(' || c = ')'

/-- Nothing in the text runs on from what is before it. -/
def Separated (cs : List Char) : Prop :=
  cs.head?.all isSeparator = true

instance (cs : List Char) : Decidable (Separated cs) :=
  inferInstanceAs (Decidable (cs.head?.all isSeparator = true))

/-- A fixed text that can follow anything. -/
def Lead (s : String) : Prop :=
  Plain s ∧ Separated s.toList ∧ s ≠ ""

instance (s : String) : Decidable (Lead s) :=
  inferInstanceAs (Decidable (Plain s ∧ Separated s.toList ∧ s ≠ ""))

theorem isMark_of_isDigit {c : Char} (h : c.isDigit = true) : isMark c = false := by
  have hq : c ≠ '"' := by rintro rfl; exact absurd h (by decide)
  have hs : c ≠ '\'' := by rintro rfl; exact absurd h (by decide)
  have hd : c ≠ '$' := by rintro rfl; exact absurd h (by decide)
  simp [isMark, hq, hs, hd]

theorem plain_append {s t : String} (hs : Plain s) (ht : Plain t) : Plain (s ++ t) := by
  intro c hc
  rw [String.toList_append, List.mem_append] at hc
  exact hc.elim (hs c) (ht c)

theorem plain_repr (n : Nat) : Plain (toString n) := by
  intro c hc
  rw [Nat.toString_eq_repr, Nat.toList_repr] at hc
  exact isMark_of_isDigit (Nat.isDigit_of_mem_toDigits (by decide) (by decide) hc)

/-- A text that starts with an opening bracket can follow anything. -/
theorem lead_bracket {s : String} (h : Plain s) : Lead ("(" ++ s) := by
  have hcs : ("(" ++ s).toList = '(' :: s.toList := by
    rw [String.toList_append]
    rfl
  refine ⟨plain_append (by decide) h, ?_, ?_⟩
  · rw [hcs]
    rfl
  · intro he
    rw [he] at hcs
    cases hcs

end Text

namespace Script

/-- The script writes nothing, or its text starts with a separator. -/
def Leads : Script → Prop
  | [] => True
  | .text s :: steps => Text.Separated s.toList ∧ (s = "" → Leads steps)
  | _ :: _ => False

theorem Leads.append {s t : Script} (hs : Leads s) (ht : Leads t) : Leads (s ++ t) := by
  induction s with
  | nil => exact ht
  | cons step steps ih =>
      cases step with
      | text s => exact ⟨hs.1, fun h => ih (hs.2 h)⟩
      | _ => exact hs.elim

end Script

/-- The script lays out the sites. -/
inductive Layout : List Site → Script → Prop
  | nil : Layout [] []
  | text {s : String} {sites : List Site} {steps : Script} (hs : Text.Plain s)
      (h : Layout sites steps) : Layout sites (.text s :: steps)
  | operator {s : String} {sites : List Site} {steps : Script} (h : Layout sites steps) :
      Layout (.operator s :: sites) (.text s :: steps)
  | ident {i : Ident} {sites : List Site} {steps : Script} (hl : Script.Leads steps)
      (h : Layout sites steps) : Layout (.ident i :: sites) (.ident i :: steps)
  | literal {l : Literal} {sites : List Site} {steps : Script} (hl : Script.Leads steps)
      (h : Layout sites steps) : Layout (.literal l :: sites) (.literal l :: steps)
  | guarded {inside sites : List Site} {body steps : Script} (hl : Script.Leads steps)
      (hbody : Layout inside body) (h : Layout sites steps) :
      Layout (Site.nest inside ++ sites) (.guarded body :: steps)
  | short {n : Nat} {sites : List Site} {steps : Script} (h : Layout sites steps) :
      Layout (.short n :: sites) (.fail (.malformedTree "CompoundIdent"
        s!"expected at least 2 segments, got {n}") :: steps)
  | unscaled {keyword : String} {sites : List Site} {steps : Script} (h : Layout sites steps) :
      Layout (.unscaled keyword :: sites) (.fail (.malformedTree "DataType"
        s!"{keyword} scale given without a precision") :: steps)
  | node {family : String} {n : Extension} {sites : List Site} {steps : Script}
      (h : Layout sites steps) : Layout (.node family n :: sites) (.custom family n :: steps)

/-- A layout that can follow anything. -/
structure Layout.Tail (sites : List Site) (s : Script) : Prop where
  layout : Layout sites s
  leads : Script.Leads s

namespace Layout

variable {a b : List Site} {s t : Script}

theorem append (h : Layout a s) (ht : Tail b t) : Layout (a ++ b) (s ++ t) := by
  induction h with
  | nil => exact ht.layout
  | text hs _ ih => exact ih.text hs
  | operator _ ih => exact ih.operator
  | ident hl _ ih => exact ih.ident (hl.append ht.leads)
  | literal hl _ ih => exact ih.literal (hl.append ht.leads)
  | guarded hl hbody _ _ ih =>
      rw [List.append_assoc]
      exact guarded (hl.append ht.leads) hbody ih
  | short _ ih => exact ih.short
  | unscaled _ ih => exact ih.unscaled
  | node _ ih => exact ih.node

theorem cons {step : Step} (h : Layout a [step]) (ht : Tail b t) :
    Layout (a ++ b) (step :: t) :=
  h.append ht

theorem nest (h : Layout a s) : Layout (Site.nest a) [.guarded s] := by
  have hg : Layout (Site.nest a ++ []) [.guarded s] := guarded trivial h nil
  rwa [List.append_nil] at hg

namespace Tail

theorem nil : Tail [] [] := ⟨Layout.nil, trivial⟩

theorem text {w : String} (hw : Text.Lead w) (h : Layout b t) :
    Tail b (.text w :: t) :=
  ⟨h.text hw.1, hw.2.1, fun he => absurd he hw.2.2⟩

theorem append (hs : Tail a s) (ht : Tail b t) : Tail (a ++ b) (s ++ t) :=
  ⟨hs.layout.append ht, hs.leads.append ht.leads⟩

end Tail

theorem ends {w : String} (h : Layout a s) (hw : Text.Lead w) :
    Layout a (s ++ [.text w]) := by
  have he := h.append (.text hw nil)
  rwa [List.append_nil] at he

/-! ### Lists -/

theorem intercalate_cons {w : String} {xs : List Script} (h : Layout a s)
    (hxs : Layout b ([Step.text w].intercalate xs)) (hw : Text.Lead w) :
    Layout (a ++ b) ([Step.text w].intercalate (s :: xs)) := by
  cases xs with
  | nil =>
      have hb : b = [] := by
        cases hxs
        rfl
      have hs : [Step.text w].intercalate [s] = s := List.append_nil s
      rw [hb, hs, List.append_nil]
      exact h
  | cons x xs => exact h.append (.text hw hxs)

/-- Parts with a separator between them, each laid out by itself, before further parts. -/
theorem intercalate_append {w : String} {α : Type} {sites : α → List Site} {script : α → Script}
    {ys : List Script} (h : ∀ x, Layout (sites x) (script x)) (xs : List α)
    (hys : Layout b ([Step.text w].intercalate ys)) (hw : Text.Lead w) :
    Layout (xs.flatMap sites ++ b) ([Step.text w].intercalate (xs.map script ++ ys)) := by
  induction xs with
  | nil => exact hys
  | cons x xs ih =>
      rw [List.flatMap_cons, List.append_assoc]
      exact intercalate_cons (h x) ih hw

theorem intercalate_map {w : String} {α : Type} {sites : α → List Site} {script : α → Script}
    (h : ∀ x, Layout (sites x) (script x)) (xs : List α) (hw : Text.Lead w) :
    Layout (xs.flatMap sites) ([Step.text w].intercalate (xs.map script)) := by
  have hxs : Layout (xs.flatMap sites ++ []) ([Step.text w].intercalate (xs.map script ++ [])) :=
    intercalate_append h xs nil hw
  rwa [List.append_nil, List.append_nil] at hxs

theorem commas_map {α : Type} {sites : α → List Site} {script : α → Script}
    (h : ∀ x, Layout (sites x) (script x)) (xs : List α) :
    Layout (xs.flatMap sites) (Script.commas (xs.map script)) :=
  intercalate_map h xs (by decide)

/-- Parts one after the other, each able to follow anything. -/
theorem Tail.flatMap {α : Type} {sites : α → List Site} {script : α → Script}
    (h : ∀ x, Tail (sites x) (script x)) (xs : List α) :
    Tail (xs.flatMap sites) (xs.flatMap script) := by
  induction xs with
  | nil => exact nil
  | cons x xs ih => exact (h x).append ih

theorem ident_map {w : String} (is : List Ident) (hw : Text.Lead w) :
    Layout (is.map Site.ident) ([Step.text w].intercalate (is.map fun i => [.ident i])) := by
  rw [List.map_eq_flatMap]
  exact intercalate_map (fun i => (ident trivial nil : Layout [.ident i] [.ident i])) is hw

theorem idents (is : List Ident) : Tail (is.map Site.ident) (Script.idents is) := by
  exact .text (by decide) ((ident_map is (by decide)).ends (by decide))

theorem columns (is : List Ident) : Tail (is.map Site.ident) (Script.columns is) := by
  cases is with
  | nil => exact .nil
  | cons i is => exact .text (by decide) (idents (i :: is)).layout

theorem precision (p : Option Nat) : Tail [] (Script.precision p) := by
  cases p with
  | none => exact .nil
  | some p =>
      have hp : s!"({p})" = "(" ++ (toString p ++ ")") := String.append_assoc
      rw [Script.precision, hp]
      exact .text (Text.lead_bracket (Text.plain_append (Text.plain_repr p) (by decide))) nil

end Layout

/-! ### Names, slots and types -/

open Layout

theorem Site.layout_compound (segments : List Ident) :
    Layout (Site.compound segments) (Script.compound segments) := by
  by_cases h : segments.length < 2
  · rw [Site.compound, Script.compound, if_pos h, if_pos h]
    exact .short .nil
  · rw [Site.compound, Script.compound, if_neg h, if_neg h]
    exact ident_map segments (by decide)

theorem Name.layout (name : Name) : Layout name.sites name.script := by
  cases name with
  | simple i => exact .ident trivial .nil
  | compound segments => exact Site.layout_compound segments

theorem Name.layoutOption (lead : String) (name : Option Name) (hlead : Text.Lead lead) :
    Tail (Name.sitesOption name) (Name.clause lead name) := by
  cases name with
  | none => exact .nil
  | some name => exact .text hlead name.layout

theorem Extension.layout_slot (family : String) (ext : Option Extension) :
    Tail (Site.slot family ext) (Extension.slot family ext) := by
  cases ext with
  | none => exact .nil
  | some n => exact .text (by decide) (.node .nil)

theorem DataType.layout_scaled (keyword : String) (p s : Option Nat) (hk : Text.Plain keyword) :
    Layout (scaledSites keyword p s) (scaled keyword p s) := by
  cases s with
  | none =>
      rcases p with _ | p
      · exact .text hk .nil
      · exact .text hk (precision (some p)).layout
  | some s =>
      rcases p with _ | p
      · exact .text hk (.unscaled .nil)
      · have hs : Text.Plain s!"({p}, {s})" :=
          Text.plain_append (Text.plain_append (Text.plain_append (Text.plain_append
            (by decide) (Text.plain_repr p)) (by decide)) (Text.plain_repr s)) (by decide)
        exact .text hk (.text hs .nil)

theorem DataType.layout (t : DataType) : Layout t.sites t.script := by
  have hword (w : String) (p : Option Nat) (z : Bool) (hw : Text.Plain w) :
      Layout [] (.text w :: (Script.precision p ++ zone z)) := by
    have hz : Tail [] (zone z) := by
      cases z with
      | false => exact .nil
      | true => exact .text (by decide) .nil
    exact .text hw ((precision p).append hz).layout
  have hlength (w : String) (p : Option Nat) (hw : Text.Plain w) :
      Layout [] (.text w :: Script.precision p) :=
    .text hw (precision p).layout
  cases t with
  | char p => exact hlength _ p (by decide)
  | varchar p => exact hlength _ p (by decide)
  | numeric p s => exact layout_scaled _ p s (by decide)
  | decimal p s => exact layout_scaled _ p s (by decide)
  | float p => exact hlength _ p (by decide)
  | time p z => exact hword _ p z (by decide)
  | timestamp p z => exact hword _ p z (by decide)
  | custom node => exact .node .nil
  | _ => exact .text (by decide) .nil

theorem JoinKind.layout (kind : JoinKind) : Layout kind.sites kind.script := by
  cases kind with
  | custom node => exact .node .nil
  | _ => exact .text (by decide) .nil

theorem BinaryOp.layout (op : BinaryOp) {b : List Site} {t : Script} (h : Layout b t) :
    Layout (op.sites ++ b) (.text op.sql :: t) := by
  cases op with
  | custom text => exact .operator h
  | _ => exact .text (by decide) h

theorem UnaryOp.layout (op : UnaryOp) {b : List Site} {t : Script} (h : Layout b t) :
    Layout (op.sites ++ b) (.text op.sql :: t) := by
  cases op with
  | custom text => exact .operator h
  | _ => exact .text (by decide) h

end TypedSql
