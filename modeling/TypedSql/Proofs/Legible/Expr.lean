import TypedSql.Proofs.Legible.Script

/-! Explicit brackets make expressions legible. An operand of an operator is an atom: brackets or words
enclose it, or it is a name, a literal, a star or a function application. Then the first word behind
an operand tells the operator, and no part of an expression is taken for a part of another one. -/

namespace TypedSql

open Text

/-! ### The expressions -/

/-- Strings, booleans, NULL and the integers from zero on. -/
def Literal.Explicit : Literal → Prop
  | null => True
  | bool _ => True
  | string _ => True
  | integer n => 0 ≤ n
  | _ => False

def BinaryOp.Bare : BinaryOp → Prop
  | custom _ => False
  | _ => True

def UnaryOp.Bare : UnaryOp → Prop
  | custom _ => False
  | _ => True

namespace Expr

/-- The expression has the form of an atom: no operator is written outside of brackets and words
that enclose it. -/
def IsAtom : Expr → Prop
  | ident _ | compound _ | wildcard | qualifiedWildcard _ | literal _ | paren _ | apply _ _ => True
  | caseOf _ _ _ | cast _ _ | extract _ _ => True
  | _ => False

/-- Atoms other than function applications. -/
def IsHead (e : Expr) : Prop :=
  e.IsAtom ∧ ∀ function args, e ≠ apply function args

end Expr

mutual

/-- Each operand of an operator, and the name of each function, is an atom. -/
def Expr.Explicit : Expr → Prop
  | .ident _ => True
  | .compound segments => 2 ≤ segments.length
  | .wildcard => True
  | .qualifiedWildcard qualifiers => qualifiers ≠ []
  | .literal l => l.Explicit
  | .paren e => e.Explicit
  | .apply function args =>
    (function.IsAtom ∧ function.Explicit) ∧ Expr.ExplicitList args
  | .caseOf operand arms otherwise =>
    Expr.ExplicitOption operand ∧ CaseArm.ExplicitList arms ∧ Expr.ExplicitOption otherwise
  | .cast e type => e.Explicit ∧ type.Bare
  | .extract _ source => source.Explicit
  | .binary left op right =>
    (left.IsAtom ∧ left.Explicit) ∧ op.Bare ∧ right.IsAtom ∧ right.Explicit
  | .unary op operand => op.Bare ∧ operand.IsAtom ∧ operand.Explicit
  | .between e _ low high =>
    (e.IsAtom ∧ e.Explicit) ∧ (low.IsAtom ∧ low.Explicit) ∧ high.IsAtom ∧ high.Explicit
  | .collate e _ => e.IsAtom ∧ e.Explicit
  | .isNull e _ => e.IsAtom ∧ e.Explicit
  | .inList e list _ => (e.IsAtom ∧ e.Explicit) ∧ Expr.ExplicitList list
  | _ => False

def Expr.ExplicitList : List Expr → Prop
  | [] => True
  | e :: es => e.Explicit ∧ Expr.ExplicitList es

def Expr.ExplicitOption : Option Expr → Prop
  | none => True
  | some e => e.Explicit

def CaseArm.ExplicitList : List CaseArm → Prop
  | [] => True
  | ⟨condition, result⟩ :: arms =>
    condition.Explicit ∧ result.Explicit ∧ CaseArm.ExplicitList arms

end

namespace Expr

theorem explicitList_iff {es : List Expr} : ExplicitList es ↔ ∀ e ∈ es, e.Explicit := by
  induction es with
  | nil => simp [ExplicitList]
  | cons e es ih => rw [ExplicitList, ih, List.forall_mem_cons]

theorem scripts_eq_map (es : List Expr) : scripts es = es.map fun e => [.guarded e.body] := by
  induction es with
  | nil => rfl
  | cons e es ih => rw [scripts, ih, List.map_cons]

theorem sitesList_eq_flatMap (es : List Expr) : sitesList es = es.flatMap sites := by
  induction es with
  | nil => rfl
  | cons e es ih => rw [sitesList, ih, List.flatMap_cons]

/-- An expression that can be written, with operands that are atoms, and smaller than a bound. -/
structure Fits (n : Nat) (e : Expr) : Prop where
  explicit : e.Explicit
  flaws : e.sites.filterMap Site.flaw? = []
  size : sizeOf e < n

namespace Fits

variable {n : Nat}

theorem of_list {es : List Expr} (h : ExplicitList es)
    (hflaws : (sitesList es).filterMap Site.flaw? = []) (hsize : sizeOf es ≤ n) :
    ∀ e ∈ es, e.Fits n := by
  rw [sitesList_eq_flatMap, List.filterMap_flatMap, List.flatMap_eq_nil_iff] at hflaws
  intro e he
  exact ⟨explicitList_iff.1 h e he, hflaws e he,
    Nat.lt_of_lt_of_le (List.sizeOf_lt_of_mem he) hsize⟩

theorem of_option {e : Option Expr} (h : ExplicitOption e)
    (hflaws : (sitesOption e).filterMap Site.flaw? = []) (hsize : sizeOf e ≤ n) :
    ∀ e' ∈ e, e'.Fits n := by
  rintro e' he
  cases he
  refine ⟨h, hflaws, ?_⟩
  rw [Option.some.sizeOf_spec] at hsize
  omega

theorem of_arms {arms : List CaseArm} (h : CaseArm.ExplicitList arms)
    (hflaws : (CaseArm.sitesList arms).filterMap Site.flaw? = []) (hsize : sizeOf arms ≤ n) :
    ∀ arm ∈ arms, arm.condition.Fits n ∧ arm.result.Fits n := by
  induction arms with
  | nil => exact List.forall_mem_nil _
  | cons arm arms ih =>
      obtain ⟨condition, result⟩ := arm
      simp only [CaseArm.ExplicitList] at h
      simp only [CaseArm.sitesList, List.filterMap_append, List.append_eq_nil_iff] at hflaws
      rw [List.cons.sizeOf_spec, CaseArm.mk.sizeOf_spec] at hsize
      refine List.forall_mem_cons.2 ⟨⟨⟨h.1, hflaws.1.1, ?_⟩, h.2.1, hflaws.1.2, ?_⟩,
        ih h.2.2 hflaws.2 (by omega)⟩
      · change sizeOf condition < n
        omega
      · change sizeOf result < n
        omega

end Fits

/-- The characters of an expression. -/
def spelling (e : Expr) : List Char := e.body.spelling

/-! ### Words -/

/-- What an atom can begin with. -/
def atomWords : List String :=
  ["\"", "*", "NULL", "TRUE", "FALSE", "'"] ++ digits ++ ["(", "CASE", "CAST(", "EXTRACT("]

/-- What an expression can begin with. -/
def exprWords : List String :=
  ["NOT ", "-", "+"] ++ atomWords

/-- What can follow an expression. The semicolon is for its end. -/
def exprEnds : List String :=
  [";", ")", ", ", " WHEN ", " THEN ", " ELSE ", " END", " AS "]

def binaryOps : List BinaryOp :=
  [.eq, .notEq, .lt, .ltEq, .gt, .gtEq, .and, .or, .add, .sub, .mul, .div, .concat, .like, .notLike]

/-- What the operand of an operator can be followed by. -/
def operatorWords : List String :=
  binaryOps.map (fun op => " " ++ op.sql ++ " ")
    ++ [" BETWEEN ", " NOT BETWEEN ", " COLLATE ", " IS NULL", " IS NOT NULL", " IN (", " NOT IN ("]

/-- What can follow an atom that is not the name of a function. -/
def atomEnds : List String :=
  operatorWords ++ exprEnds

/-- What can follow an atom other than a function application. -/
def headEnds : List String :=
  ["("] ++ atomEnds

end Expr

theorem Literal.legible : Legible (["NULL", "TRUE", "FALSE"] ++ (["'"] ++ digits)) Expr.headEnds
    Explicit (fun l => (l.sql .standard).toList) (· = ·) := by
  have hword := Legible.keyword (fun l : Literal => l.sql .standard)
    [.null, .bool true, .bool false]
    (by decide : Code Expr.headEnds (["NULL", "TRUE", "FALSE"]))
  have hstring : Legible ["'"] Expr.headEnds _ (fun l : Literal => (l.sql .standard).toList)
      (· = ·) :=
    (Legible.quoted '\'' (by decide)).image string (fun _ _ => rfl)
      fun _ _ _ _ he => congrArg string he
  have hinteger : Legible digits Expr.headEnds _ (fun l : Literal => (l.sql .standard).toList)
      (· = ·) :=
    (Legible.number (by decide)).image (fun n : Nat => integer n) (fun _ _ => rfl)
      fun _ _ _ _ he => congrArg (fun n : Nat => integer n) he
  refine (hword.union (hstring.union hinteger (by decide)) (by decide)).imp ?_
    fun _ _ _ _ he => he
  intro l hl
  cases l with
  | null => exact .inl (List.mem_cons_self)
  | bool b => cases b <;> exact .inl (by simp)
  | string s => exact .inr (.inl ⟨s, trivial, rfl⟩)
  | integer n => exact .inr (.inr ⟨n.toNat, trivial, congrArg integer (Int.toNat_of_nonneg hl)⟩)
  | float x => exact hl.elim
  | numeral text => exact hl.elim

namespace Expr

/-! ### Atoms -/

theorem spelling_clause (lead : String) (e : Option Expr) :
    (clause lead e).spelling = e.elim [] fun e => lead.toList ++ e.spelling := by
  cases e with
  | none => rfl
  | some e =>
      rw [clause, Script.spelling_text, Script.spelling_guarded, Script.spelling_nil,
        List.append_nil]
      rfl

theorem spelling_arms (arms : List CaseArm) : (CaseArm.script arms).spelling =
    arms.flatMap fun arm => " WHEN ".toList
      ++ (arm.condition.spelling ++ (" THEN ".toList ++ arm.result.spelling)) := by
  induction arms with
  | nil => rfl
  | cons arm arms ih =>
      obtain ⟨condition, result⟩ := arm
      rw [List.flatMap_cons, ← ih, CaseArm.script]
      simp only [Script.spelling_text, Script.spelling_guarded, List.append_assoc]
      rfl

/-- An identifier, a compound one, or all columns of what the segments name. -/
def reference (segments : List Ident) (all : Bool) : Expr :=
  if all then .qualifiedWildcard segments
  else if segments.length < 2 then .ident (segments.headD "") else .compound segments

theorem spelling_reference {segments : List Ident} (h : segments ≠ []) (all : Bool) :
    (reference segments all).spelling =
      (Script.chain segments).spelling ++ if all then ".*".toList else [] := by
  cases all with
  | true =>
      have hempty : ¬ segments.isEmpty = true := mt List.isEmpty_iff.1 h
      rw [spelling, reference, if_pos rfl, body, if_neg hempty, Script.spelling_append,
        Script.spelling_text, Script.spelling_text]
      rfl
  | false =>
      rw [if_neg Bool.false_ne_true, List.append_nil, spelling, reference,
        if_neg Bool.false_ne_true]
      match segments with
      | [] => exact absurd rfl h
      | [i] => rfl
      | i :: j :: segments => rfl

/-- Identifiers and what is made of them are known by their segments and a star behind these. -/
theorem legible_reference : Legible ["\""] headEnds
    (fun e => ∃ x : List Ident × Bool, x.1 ≠ [] ∧ reference x.1 x.2 = e) spelling (· = ·) := by
  have hsegments := (Legible.segments (by decide : Apart _ ([".*"] ++ headEnds))).on
    fun x : List Ident × Bool => x.1
  have hall := (Legible.flag (by decide : Apart [".*"] headEnds)).on fun x : List Ident × Bool => x.2
  have hpair : Legible ["\""] headEnds _ spelling (· = ·) :=
    (hsegments.append hall (Covers.refl _)).image (fun x => reference x.1 x.2)
      (fun x hx => spelling_reference hx.1 x.2) fun x y _ _ he => by rw [he.1, he.2]
  exact hpair.imp (fun e ⟨x, hx, he⟩ => ⟨x, ⟨hx, trivial⟩, he⟩) fun _ _ _ _ he => he

theorem legible_wildcard : Legible ["*"] headEnds (· = wildcard) spelling (· = ·) := by
  refine ((Legible.word "*" _).of_text _ ?_).imp (fun _ he => he) fun _ _ he he' _ =>
    he.trans he'.symm
  rintro _ rfl
  exact (Script.spelling_text _ _).trans (List.append_nil _)

theorem legible_literal : Legible (["NULL", "TRUE", "FALSE"] ++ (["'"] ++ digits)) headEnds
    (fun e => ∃ l : Literal, l.Explicit ∧ literal l = e) spelling (· = ·) :=
  Literal.legible.image literal
    (fun l _ => (Script.spelling_literal _ l).trans (List.append_nil _))
    fun _ _ _ _ he => congrArg literal he

section

variable {n : Nat} (ih : Legible exprWords exprEnds (Fits n) spelling (· = ·))
include ih

/-- Expressions with commas between them, before a closing bracket. -/
theorem legible_list (follow : List String) : Legible (exprWords ++ [")"]) follow
    (fun es : List Expr => ∀ e ∈ es, e.Fits n)
    (fun es => (Script.commas (scripts es)).spelling ++ ")".toList) (· = ·) := by
  have hlist := Legible.commas (ih.mono (Covers.refl _)
    (by decide : Covers exprEnds ([", "] ++ [")"]))) (by decide) (by decide)
  refine (hlist.ended ")" (Covers.refl _) follow).of_text _ ?_
  intro es _
  rw [Script.spelling_commas, scripts_eq_map, List.map_map]
  congr 2
  refine List.map_congr_left fun e _ => ?_
  exact (Script.spelling_guarded _ _).trans (List.append_nil _)

theorem legible_paren : Legible ["("] headEnds (fun e => ∃ x : Expr, x.Fits n ∧ paren x = e)
    spelling (· = ·) := by
  have hinside := ((ih.mono (Covers.refl _) (by decide)).ended ")" (Covers.refl [")"]) headEnds).led "("
  refine hinside.image paren ?_ fun _ _ _ _ he => congrArg paren he
  intro e _
  simp only [spelling, body, Script.spelling_text, Script.spelling_guarded, Script.spelling_nil,
    List.append_nil]

theorem legible_cast : Legible ["CAST("] headEnds
    (fun e => ∃ x : Expr × DataType, (x.1.Fits n ∧ x.2.Whole) ∧ cast x.1 x.2 = e) spelling
    (· = ·) := by
  have htype := (((DataType.legible (by decide) (by decide) (by decide)).ended ")"
    (Covers.refl _) headEnds).led " AS ").on fun x : Expr × DataType => x.2
  have hinside := (((ih.mono (Covers.refl _) (by decide)).on fun x : Expr × DataType => x.1).append
    htype (Covers.refl _)).led "CAST("
  refine hinside.image (fun x => cast x.1 x.2) ?_ fun x y _ _ he => by rw [he.1, he.2]
  intro x _
  simp only [spelling, body, Script.spelling_text, Script.spelling_guarded, Script.spelling_append,
    Script.spelling_nil, List.append_nil]

def fields : List DateField :=
  [.year, .month, .day, .hour, .minute, .second, .timezoneHour, .timezoneMinute]

theorem legible_extract : Legible ["EXTRACT("] headEnds
    (fun e => ∃ x : DateField × Expr, (x.1 ∈ fields ∧ x.2.Fits n) ∧ extract x.1 x.2 = e) spelling
    (· = ·) := by
  have hfield := (Legible.keyword DateField.sql fields (by decide : Code [" FROM "] _)).on
    fun x : DateField × Expr => x.1
  have hsource := (((ih.mono (Covers.refl _) (by decide)).ended ")" (Covers.refl [")"]) headEnds).led
    " FROM ").on fun x : DateField × Expr => x.2
  refine ((hfield.append hsource (Covers.refl _)).led "EXTRACT(").image (fun x => extract x.1 x.2) ?_
    fun x y _ _ he => by rw [he.1, he.2]
  intro x _
  simp only [spelling, body, Script.spelling_text, Script.spelling_guarded, Script.spelling_nil,
    List.append_nil]

/-- The arms of a case, before its last words. -/
theorem legible_arms : Legible [" WHEN ", " ELSE ", " END"] [" ELSE ", " END"]
    (fun arms => ∀ arm ∈ arms, arm.condition.Fits n ∧ arm.result.Fits n)
    (fun arms => (CaseArm.script arms).spelling) (· = ·) := by
  have hresult := ((ih.mono (Covers.refl _)
    (by decide : Covers exprEnds [" WHEN ", " ELSE ", " END"])).led " THEN ").on CaseArm.result
  have hparts := (((ih.mono (Covers.refl _) (by decide)).on CaseArm.condition).append hresult
    (Covers.refl _)).led " WHEN "
  have harm : Legible [" WHEN "] [" WHEN ", " ELSE ", " END"] _ _ (· = ·) :=
    hparts.imp (fun _ h => h) fun arm arm' _ _ he => by
      cases arm
      cases arm'
      rw [CaseArm.mk.injEq]
      exact he
  refine (harm.many (by decide : Apart [" WHEN "] [" ELSE ", " END"])).of_text _ ?_
  exact fun arms _ => spelling_arms arms

theorem legible_case : Legible ["CASE"] headEnds
    (fun e => ∃ x : Option Expr × List CaseArm × Option Expr, ((∀ e ∈ x.1, e.Fits n) ∧
      (∀ arm ∈ x.2.1, arm.condition.Fits n ∧ arm.result.Fits n) ∧ ∀ e ∈ x.2.2, e.Fits n) ∧
      caseOf x.1 x.2.1 x.2.2 = e) spelling (· = ·) := by
  have hotherwise := ((((ih.mono (Covers.refl _) (by decide : Covers exprEnds [" END"])).led
    " ELSE ").option (by decide)).ended " END" (Covers.refl _) headEnds).on
      fun x : Option Expr × List CaseArm × Option Expr => x.2.2
  have harms := ((legible_arms ih).on fun x : Option Expr × List CaseArm × Option Expr =>
    x.2.1).append hotherwise (Covers.refl _)
  -- An operand is known from the words behind it, because no expression begins with one of them.
  have hoperand := (((ih.mono (Covers.refl _)
    (by decide : Covers exprEnds [" WHEN ", " ELSE ", " END"])).behind " ").option
      (by decide)).on fun x : Option Expr × List CaseArm × Option Expr => x.1
  refine ((hoperand.append harms (by decide)).led "CASE").image
    (fun x => caseOf x.1 x.2.1 x.2.2) ?_ fun x y _ _ he => by rw [he.1, he.2.1, he.2.2]
  intro x _
  simp only [spelling, body, spelling_clause, Script.spelling_text, Script.spelling_append,
    Script.spelling_nil, List.append_nil, List.append_assoc]

/-- Atoms other than function applications are known by their beginnings. -/
theorem legible_head : Legible atomWords headEnds (fun e => e.IsHead ∧ e.Fits (n + 1)) spelling
    (· = ·) := by
  have hwords := (legible_case ih).union ((legible_cast ih).union (legible_extract ih) (by decide))
    (by decide)
  have hsigns := legible_wildcard.union (legible_literal.union ((legible_paren ih).union hwords
    (by decide)) (by decide)) (by decide)
  have hall := (legible_reference.union hsigns (by decide)).mono (by decide : Covers atomWords _)
    (Covers.refl _)
  refine hall.imp ?_ fun _ _ _ _ he => he
  rintro e ⟨⟨hatom, happly⟩, hexplicit, hflaws, hsize⟩
  cases e with
  | ident i => exact .inl ⟨([i], false), List.cons_ne_nil i [], rfl⟩
  | compound segments =>
      have hlength : 2 ≤ segments.length := hexplicit
      refine .inl ⟨(segments, false), ?_, ?_⟩
      · rintro rfl
        exact absurd hlength (by decide)
      · rw [reference, if_neg Bool.false_ne_true, if_neg (Nat.not_lt.2 hlength)]
  | qualifiedWildcard qualifiers => exact .inl ⟨(qualifiers, true), hexplicit, rfl⟩
  | wildcard => exact .inr (.inl rfl)
  | literal l => exact .inr (.inr (.inl ⟨l, hexplicit, rfl⟩))
  | paren e =>
      rw [sites, Site.flaws_nest] at hflaws
      rw [paren.sizeOf_spec] at hsize
      exact .inr (.inr (.inr (.inl ⟨e, ⟨hexplicit, hflaws, by omega⟩, rfl⟩)))
  | caseOf operand arms otherwise =>
      obtain ⟨hoperand, harms, hotherwise⟩ := hexplicit
      simp only [sites, Site.flaws_nest, List.filterMap_append, List.append_eq_nil_iff] at hflaws
      obtain ⟨⟨hoperandFlaws, harmsFlaws⟩, hotherwiseFlaws⟩ := hflaws
      rw [caseOf.sizeOf_spec] at hsize
      have hoperandFits := Fits.of_option hoperand hoperandFlaws (n := n) (by omega)
      have harmsFit := Fits.of_arms harms harmsFlaws (n := n) (by omega)
      have hotherwiseFits := Fits.of_option hotherwise hotherwiseFlaws (n := n) (by omega)
      exact .inr (.inr (.inr (.inr (.inl ⟨(operand, arms, otherwise),
        ⟨hoperandFits, harmsFit, hotherwiseFits⟩, rfl⟩))))
  | cast e type =>
      simp only [sites, Site.flaws_nest, List.filterMap_append, List.append_eq_nil_iff] at hflaws
      rw [cast.sizeOf_spec] at hsize
      have he : e.Fits n := ⟨hexplicit.1, hflaws.1, by omega⟩
      have htype := DataType.whole_of_flaws hexplicit.2 hflaws.2
      exact .inr (.inr (.inr (.inr (.inr (.inl ⟨(e, type), ⟨he, htype⟩, rfl⟩)))))
  | extract field source =>
      have hfield : field ∈ fields := by cases field <;> decide
      rw [sites, Site.flaws_nest] at hflaws
      rw [extract.sizeOf_spec] at hsize
      have hsource : source.Fits n := ⟨hexplicit, hflaws, by omega⟩
      exact .inr (.inr (.inr (.inr (.inr (.inr ⟨(field, source), ⟨hfield, hsource⟩, rfl⟩)))))
  | apply function args => exact absurd rfl (happly function args)
  | _ => exact hatom.elim

omit ih in
theorem spelling_calls (head : Expr) (calls : List (List Expr)) :
    (calls.foldl apply head).spelling = head.spelling ++ calls.flatMap fun args =>
      "(".toList ++ ((Script.commas (scripts args)).spelling ++ ")".toList) := by
  induction calls generalizing head with
  | nil => exact (List.append_nil _).symm
  | cons args calls ih =>
      rw [List.foldl_cons, ih, List.flatMap_cons, spelling, body]
      simp only [Script.spelling_text, Script.spelling_guarded, Script.spelling_append,
        Script.spelling_nil, List.append_nil, List.append_assoc]
      rfl

omit ih in
/-- An atom is another one that is applied to some lists of arguments, one after the other. -/
theorem exists_calls {e : Expr} (hatom : e.IsAtom) (h : e.Fits (n + 1)) :
    ∃ (head : Expr) (calls : List (List Expr)), (head.IsHead ∧ head.Fits (n + 1)) ∧
      (∀ args ∈ calls, ∀ arg ∈ args, arg.Fits n) ∧ calls.foldl apply head = e := by
  induction hk : sizeOf e using Nat.strongRecOn generalizing e with
  | ind k ih =>
      subst hk
      by_cases happly : ∃ function args, e = apply function args
      · obtain ⟨function, args, rfl⟩ := happly
        obtain ⟨⟨⟨hfunction, hexplicit⟩, hargs⟩, hflaws, hsize⟩ := h
        simp only [sites, Site.flaws_nest, List.filterMap_append, List.append_eq_nil_iff] at hflaws
        rw [apply.sizeOf_spec] at hsize
        have hfits : function.Fits (n + 1) := ⟨hexplicit, hflaws.1, by omega⟩
        obtain ⟨head, calls, hhead, hcalls, rfl⟩ := ih (sizeOf function)
          (by rw [apply.sizeOf_spec]; omega) hfunction hfits rfl
        refine ⟨head, calls ++ [args], hhead, ?_, by rw [List.foldl_append]; rfl⟩
        rw [List.forall_mem_append, List.forall_mem_singleton]
        exact ⟨hcalls, Fits.of_list hargs hflaws.2 (by omega)⟩
      · exact ⟨e, [], ⟨⟨hatom, fun function args he => happly ⟨function, args, he⟩⟩, h⟩,
          List.forall_mem_nil _, rfl⟩

/-- Atoms are known by what is applied and by the arguments. -/
theorem legible_atom : Legible atomWords atomEnds (fun e => e.IsAtom ∧ e.Fits (n + 1)) spelling
    (· = ·) := by
  have hargs := ((legible_list ih (["("] ++ atomEnds)).led "(").many (by decide)
  have hpair := ((legible_head ih).on fun x : Expr × List (List Expr) => x.1).append
    (hargs.on fun x : Expr × List (List Expr) => x.2) (Covers.refl _)
  have hatom : Legible atomWords atomEnds _ spelling (· = ·) :=
    hpair.image (fun x => x.2.foldl apply x.1) (fun x _ => spelling_calls x.1 x.2)
      fun x y _ _ he => by rw [he.1, he.2]
  refine hatom.imp ?_ fun _ _ _ _ he => he
  rintro e ⟨hatom, hfits⟩
  obtain ⟨head, calls, hhead, hcalls, rfl⟩ := exists_calls hatom hfits
  exact ⟨(head, calls), ⟨hhead, hcalls⟩, rfl⟩

end

/-! ### Operators -/

/-- What is written behind the first operand of an operator. -/
inductive Suffix where
  | none
  | binary (op : BinaryOp) (right : Expr)
  | between (low high : Expr) (negated : Bool)
  | collate (collation : Name)
  | isNull (negated : Bool)
  | inList (list : List Expr) (negated : Bool)

namespace Suffix

/-- The expression of an operand and what is behind it. -/
def attach (e : Expr) : Suffix → Expr
  | none => e
  | binary op right => .binary e op right
  | between low high negated => .between e negated low high
  | collate collation => .collate e collation
  | isNull negated => .isNull e negated
  | inList list negated => .inList e list negated

def script : Suffix → Script
  | none => []
  | binary op right => [.text " ", .text op.sql, .text " ", .guarded right.body]
  | between low high negated =>
    [.text (if negated then " NOT BETWEEN " else " BETWEEN "), .guarded low.body, .text " AND ",
      .guarded high.body]
  | collate collation => .text " COLLATE " :: collation.script
  | isNull negated => [.text (if negated then " IS NOT NULL" else " IS NULL")]
  | inList list negated =>
    .text (if negated then " NOT IN (" else " IN (")
      :: (Script.commas (scripts list) ++ [.text ")"])

/-- The parts fit that are written behind an operand: one more operand, or a list. -/
def Fits (n : Nat) : Suffix → Prop
  | none => True
  | binary op right => op.Bare ∧ right.IsAtom ∧ right.Fits (n + 1)
  | between low high _ => (low.IsAtom ∧ low.Fits (n + 1)) ∧ high.IsAtom ∧ high.Fits (n + 1)
  | collate collation => collation.Whole
  | isNull _ => True
  | inList list _ => ∀ e ∈ list, e.Fits n

theorem spelling_attach (e : Expr) (s : Suffix) :
    (s.attach e).spelling = e.spelling ++ s.script.spelling := by
  cases s with
  | none => exact (List.append_nil _).symm
  | _ => exact Script.spelling_guarded _ _

end Suffix

section

variable {n : Nat} (ih : Legible exprWords exprEnds (Fits n) spelling (· = ·))
include ih

omit ih in
/-- An expression is an operator before an atom, or an atom with a suffix. -/
theorem Fits.unary_or_attach {e : Expr} (h : e.Fits (n + 1)) :
    (∃ op operand, op.Bare ∧ (operand.IsAtom ∧ operand.Fits (n + 1)) ∧ unary op operand = e) ∨
      ∃ (operand : Expr) (s : Suffix),
        (operand.IsAtom ∧ operand.Fits (n + 1)) ∧ s.Fits n ∧ s.attach operand = e := by
  have hself {e : Expr} (hatom : e.IsAtom) (h : e.Fits (n + 1)) : ∃ (operand : Expr) (s : Suffix),
      (operand.IsAtom ∧ operand.Fits (n + 1)) ∧ s.Fits n ∧ s.attach operand = e :=
    ⟨e, .none, ⟨hatom, h⟩, trivial, rfl⟩
  obtain ⟨hexplicit, hflaws, hsize⟩ := h
  cases e with
  | unary op operand =>
      obtain ⟨hop, hatom, hoperand⟩ := hexplicit
      simp only [sites, Site.flaws_nest, List.filterMap_append, List.append_eq_nil_iff] at hflaws
      rw [unary.sizeOf_spec] at hsize
      exact .inl ⟨op, operand, hop, ⟨hatom, hoperand, hflaws.2, by omega⟩, rfl⟩
  | binary left op right =>
      obtain ⟨⟨hatom, hleft⟩, hop, hatom', hright⟩ := hexplicit
      simp only [sites, Site.flaws_nest, List.filterMap_append, List.append_eq_nil_iff] at hflaws
      rw [binary.sizeOf_spec] at hsize
      exact .inr ⟨left, .binary op right, ⟨hatom, hleft, hflaws.1.1, by omega⟩,
        ⟨hop, hatom', hright, hflaws.2, by omega⟩, rfl⟩
  | between e negated low high =>
      obtain ⟨⟨hatom, he⟩, ⟨hlowAtom, hlow⟩, hhighAtom, hhigh⟩ := hexplicit
      simp only [sites, Site.flaws_nest, List.filterMap_append, List.append_eq_nil_iff] at hflaws
      rw [between.sizeOf_spec] at hsize
      exact .inr ⟨e, .between low high negated, ⟨hatom, he, hflaws.1.1, by omega⟩,
        ⟨⟨hlowAtom, hlow, hflaws.1.2, by omega⟩, hhighAtom, hhigh, hflaws.2, by omega⟩, rfl⟩
  | collate e collation =>
      obtain ⟨hatom, he⟩ := hexplicit
      simp only [sites, Site.flaws_nest, List.filterMap_append, List.append_eq_nil_iff] at hflaws
      rw [collate.sizeOf_spec] at hsize
      exact .inr ⟨e, .collate collation, ⟨hatom, he, hflaws.1, by omega⟩,
        Name.whole_of_flaws hflaws.2, rfl⟩
  | isNull e negated =>
      obtain ⟨hatom, he⟩ := hexplicit
      rw [sites, Site.flaws_nest] at hflaws
      rw [isNull.sizeOf_spec] at hsize
      exact .inr ⟨e, .isNull negated, ⟨hatom, he, hflaws, by omega⟩, trivial, rfl⟩
  | inList e list negated =>
      obtain ⟨⟨hatom, he⟩, hlist⟩ := hexplicit
      simp only [sites, Site.flaws_nest, List.filterMap_append, List.append_eq_nil_iff] at hflaws
      rw [inList.sizeOf_spec] at hsize
      exact .inr ⟨e, .inList list negated, ⟨hatom, he, hflaws.1, by omega⟩,
        Fits.of_list hlist hflaws.2 (by omega), rfl⟩
  | existsQuery q | inQuery e q negated | subquery q | custom node => exact hexplicit.elim
  | _ => exact .inr (hself trivial ⟨hexplicit, hflaws, hsize⟩)

theorem legible_binary : Legible (binaryOps.map fun op => " " ++ op.sql ++ " ") exprEnds
    (fun s => ∃ x : BinaryOp × Expr, (x.1 ∈ binaryOps ∧ x.2.IsAtom ∧ x.2.Fits (n + 1)) ∧
      Suffix.binary x.1 x.2 = s) (fun s => s.script.spelling) (· = ·) := by
  have hop := (Legible.keyword (fun op => " " ++ op.sql ++ " ") binaryOps
    (by decide : Code atomWords _)).on fun x : BinaryOp × Expr => x.1
  have hright := ((legible_atom ih).mono (Covers.refl _) (by decide : Covers _ exprEnds)).on
    fun x : BinaryOp × Expr => x.2
  refine (hop.append hright (Covers.refl _)).image (fun x => Suffix.binary x.1 x.2) ?_
    fun x y _ _ he => by rw [he.1, he.2]
  intro x _
  simp only [Suffix.script, spelling, Script.spelling_text, Script.spelling_guarded,
    Script.spelling_nil, List.append_nil, String.toList_append, List.append_assoc]

/-- The first bound is an atom, so that the word behind it is not taken for an operator in it. -/
theorem legible_between : Legible [" NOT BETWEEN ", " BETWEEN "] exprEnds
    (fun s => ∃ x : Bool × Expr × Expr, (x.1 ∈ [true, false] ∧
      (x.2.1.IsAtom ∧ x.2.1.Fits (n + 1)) ∧ x.2.2.IsAtom ∧ x.2.2.Fits (n + 1)) ∧
      Suffix.between x.2.1 x.2.2 x.1 = s) (fun s => s.script.spelling) (· = ·) := by
  have hword := (Legible.keyword (fun b : Bool => if b then " NOT BETWEEN " else " BETWEEN ")
    [true, false] (by decide : Code atomWords _)).on fun x : Bool × Expr × Expr => x.1
  have hhigh := (((legible_atom ih).mono (Covers.refl _) (by decide : Covers _ exprEnds)).led
    " AND ").on fun x : Bool × Expr × Expr => x.2.2
  have hlow := (((legible_atom ih).mono (Covers.refl _) (by decide)).on
    fun x : Bool × Expr × Expr => x.2.1).append hhigh (Covers.refl _)
  refine (hword.append hlow (Covers.refl _)).image (fun x => Suffix.between x.2.1 x.2.2 x.1) ?_
    fun x y _ _ he => by rw [he.1, he.2.1, he.2.2]
  intro x _
  simp only [Suffix.script, spelling, Script.spelling_text, Script.spelling_guarded,
    Script.spelling_nil, List.append_nil]

omit ih in
theorem legible_collate : Legible [" COLLATE "] exprEnds
    (fun s => ∃ name : Name, name.Whole ∧ Suffix.collate name = s) (fun s => s.script.spelling)
    (· = ·) :=
  ((Name.legible (by decide : Apart _ exprEnds)).led " COLLATE ").image Suffix.collate
    (fun _ _ => Script.spelling_text _ _) fun _ _ _ _ he => congrArg Suffix.collate he

omit ih in
theorem legible_isNull : Legible [" IS NOT NULL", " IS NULL"] exprEnds
    (fun s => ∃ negated : Bool, negated ∈ [true, false] ∧ Suffix.isNull negated = s)
    (fun s => s.script.spelling) (· = ·) :=
  (Legible.keyword (fun b : Bool => if b then " IS NOT NULL" else " IS NULL") [true, false]
    (by decide : Code exprEnds _)).image Suffix.isNull
      (fun _ _ => (Script.spelling_text _ _).trans (List.append_nil _))
      fun _ _ _ _ he => congrArg Suffix.isNull he

theorem legible_inList : Legible [" NOT IN (", " IN ("] exprEnds
    (fun s => ∃ x : Bool × List Expr, (x.1 ∈ [true, false] ∧ ∀ e ∈ x.2, e.Fits n) ∧
      Suffix.inList x.2 x.1 = s) (fun s => s.script.spelling) (· = ·) := by
  have hword := (Legible.keyword (fun b : Bool => if b then " NOT IN (" else " IN (") [true, false]
    (by decide : Code (exprWords ++ [")"]) _)).on fun x : Bool × List Expr => x.1
  have hlist := (legible_list ih exprEnds).on fun x : Bool × List Expr => x.2
  refine (hword.append hlist (Covers.refl _)).image (fun x => Suffix.inList x.2 x.1) ?_
    fun x y _ _ he => by rw [he.1, he.2]
  intro x _
  simp only [Suffix.script, Script.spelling_text, Script.spelling_append, Script.spelling_nil,
    List.append_nil]

/-- What is behind an operand is known by its first word. -/
theorem legible_suffix : Legible atomEnds exprEnds (Suffix.Fits n) (fun s => s.script.spelling)
    (· = ·) := by
  have hnone : Legible exprEnds exprEnds (· = Suffix.none) (fun s => s.script.spelling) (· = ·) :=
    Legible.absent Suffix.none rfl
  have hwords := legible_collate.union (legible_isNull.union ((legible_inList ih).union hnone
    (by decide)) (by decide)) (by decide)
  have hall := ((legible_binary ih).union ((legible_between ih).union hwords (by decide))
    (by decide)).mono (by decide : Covers atomEnds _) (Covers.refl _)
  have hbool (b : Bool) : b ∈ [true, false] := by cases b <;> decide
  refine hall.imp ?_ fun _ _ _ _ he => he
  intro s hs
  cases s with
  | binary op right =>
      have hop : op ∈ binaryOps := by
        have hbare := hs.1
        cases op with
        | custom text => exact hbare.elim
        | _ => decide
      exact .inl ⟨(op, right), ⟨hop, hs.2⟩, rfl⟩
  | between low high negated => exact .inr (.inl ⟨(negated, low, high), ⟨hbool _, hs⟩, rfl⟩)
  | collate collation => exact .inr (.inr (.inl ⟨collation, hs, rfl⟩))
  | isNull negated => exact .inr (.inr (.inr (.inl ⟨negated, hbool _, rfl⟩)))
  | inList list negated =>
      exact .inr (.inr (.inr (.inr (.inl ⟨(negated, list), ⟨hbool _, hs⟩, rfl⟩))))
  | none => exact .inr (.inr (.inr (.inr (.inr rfl))))

theorem legible_unary : Legible ["NOT ", "-", "+"] exprEnds
    (fun e => ∃ x : UnaryOp × Expr, (x.1 ∈ [.not, .neg, .plus] ∧ x.2.IsAtom ∧ x.2.Fits (n + 1)) ∧
      unary x.1 x.2 = e) spelling (· = ·) := by
  have hop := (Legible.keyword UnaryOp.sql [.not, .neg, .plus] (by decide : Code atomWords _)).on
    fun x : UnaryOp × Expr => x.1
  have hoperand := ((legible_atom ih).mono (Covers.refl _) (by decide : Covers _ exprEnds)).on
    fun x : UnaryOp × Expr => x.2
  refine (hop.append hoperand (Covers.refl _)).image (fun x => unary x.1 x.2) ?_
    fun x y _ _ he => by rw [he.1, he.2]
  intro x _
  simp only [spelling, body, Script.spelling_text, Script.spelling_guarded, Script.spelling_nil,
    List.append_nil]

/-- From expressions below a bound to those at the bound. -/
theorem legible_succ : Legible exprWords exprEnds (Fits (n + 1)) spelling (· = ·) := by
  have hpair := ((legible_atom ih).on fun x : Expr × Suffix => x.1).append
    ((legible_suffix ih).on fun x : Expr × Suffix => x.2) (Covers.refl _)
  have hattached : Legible atomWords exprEnds _ spelling (· = ·) :=
    hpair.image (fun x => x.2.attach x.1) (fun x _ => x.2.spelling_attach x.1)
      fun x y _ _ he => by rw [he.1, he.2]
  refine ((legible_unary ih).union hattached (by decide)).imp ?_ fun _ _ _ _ he => he
  intro e he
  rcases he.unary_or_attach with ⟨op, operand, hop, hoperand, rfl⟩ | ⟨operand, s, hoperand, hs, rfl⟩
  · have hop' : op ∈ [.not, .neg, .plus] := by
      cases op with
      | custom text => exact hop.elim
      | _ => decide
    exact .inl ⟨(op, operand), ⟨hop', hoperand⟩, rfl⟩
  · exact .inr ⟨(operand, s), ⟨hoperand, hs⟩, rfl⟩

end

/-- Expressions whose operands are atoms are legible. -/
theorem legible_fits (n : Nat) : Legible exprWords exprEnds (Fits n) spelling (· = ·) := by
  induction n with
  | zero =>
      have hnone (e : Expr) : ¬ e.Fits 0 := fun h => Nat.not_lt_zero _ h.size
      exact ⟨fun e he => absurd he (hnone e), fun e _ he => absurd he (hnone e)⟩
  | succ n ih => exact legible_succ ih

end Expr

/-- The renderer has no handlers, and it writes literals with the quotes in them doubled. -/
structure Renderer.Spells (r : Renderer) : Prop where
  handlers : r.handlers = {}
  mode : r.options.paramsMode = false
  escaping : r.options.escaping = .standard

namespace Expr

/-- Where literals are written with their quotes doubled, two expressions whose operands are atoms have
the same text if and only if they are the same expression. -/
theorem Explicit.sql_eq_iff_eq {r r' : Renderer} (hr : r.Spells) (hr' : r'.Spells) {e e' : Expr}
    (he : e.Explicit) (he' : e'.Explicit) {a a' : Rendered} (ha : (r.expr e).result = .ok a)
    (ha' : (r'.expr e').result = .ok a') : a.sql = a'.sql ↔ e = e' := by
  have hspelled {r : Renderer} (hr : r.Spells) {e : Expr} {a : Rendered}
      (ha : (r.expr e).result = .ok a) :
      a.sql.toList = e.spelling ∧ e.sites.filterMap Site.flaw? = [] := by
    obtain ⟨hsql, hflaws⟩ := Tree.spelling_of_ok (t := .expr e)
      (Tree.no_node_of_ok (t := .expr e) hr.handlers ha) (fun _ _ => ⟨hr.mode, hr.escaping⟩) ha
    exact ⟨hsql.trans ((Script.spelling_guarded _ _).trans (List.append_nil _)), hflaws⟩
  obtain ⟨hsql, hflaws⟩ := hspelled hr ha
  obtain ⟨hsql', hflaws'⟩ := hspelled hr' ha'
  rw [← String.toList_inj, hsql, hsql']
  constructor
  · -- Both expressions are below a bound, and what fits below it is legible.
    exact (legible_fits (sizeOf e + sizeOf e' + 1)).inj ⟨he, hflaws, by omega⟩
      ⟨he', hflaws', by omega⟩
  · rintro rfl
    rfl

/-- The word between two bounds is told from the operator in the brackets behind it, and a range from
its negation. -/
theorem Explicit.sql_eq_iff_eq_between :
    let r : Renderer := { options := { escaping := .standard } }
    let both : Expr := .paren (.binary (.ident "b") .and (.literal (.string "'")))
    let e (negated : Bool) : Expr := .between (.ident "a") negated (.literal (.integer 1)) both
    r.Spells ∧ (∀ negated, (e negated).Explicit) ∧
      ∃ a a', (r.expr (e true)).result = .ok a ∧ (r.expr (e false)).result = .ok a' ∧
        (a.sql = a'.sql ↔ e true = e false) := by
  intro r both e
  have hr : r.Spells := ⟨rfl, rfl, rfl⟩
  have hinteger : (Literal.integer 1).Explicit := Int.one_nonneg
  have hboth : both.Explicit := ⟨⟨trivial, trivial⟩, trivial, trivial, trivial⟩
  have he (negated : Bool) : (e negated).Explicit :=
    ⟨⟨trivial, trivial⟩, ⟨trivial, hinteger⟩, trivial, hboth⟩
  obtain ⟨a, ha⟩ : ∃ a, (r.expr (e true)).result = .ok a := ⟨_, rfl⟩
  obtain ⟨a', ha'⟩ : ∃ a, (r.expr (e false)).result = .ok a := ⟨_, rfl⟩
  exact ⟨hr, he, a, a', ha, ha', Explicit.sql_eq_iff_eq hr hr (he true) (he false) ha ha'⟩

end Expr

end TypedSql
