import TypedSql.Proofs.Comment

/-! How the text of an expression begins. An operand is written directly behind the operator before it,
so whether the two make a comment is decided by the first character of the operand. -/

namespace TypedSql

open Text Script

/-- Whether the text of an expression begins with a minus sign: a negation, a negative number that is
not bound, or an expression whose first operand begins with one. -/
def Expr.leadsMinus (bound : Bool) : Expr → Bool
  | .literal l => !bound && l.isMinus
  | .unary op operand =>
    match op.sql.toList with
    | [] => operand.leadsMinus bound
    | c :: _ => c = '-'
  | .binary left _ _ => left.leadsMinus bound
  | .between e _ _ _ => e.leadsMinus bound
  | .collate e _ => e.leadsMinus bound
  | .apply function _ => function.leadsMinus bound
  | .isNull e _ => e.leadsMinus bound
  | .inList e _ _ => e.leadsMinus bound
  | .inQuery e _ _ => e.leadsMinus bound
  | _ => false

section Head

variable {o : Options} (count : Nat)

theorem Literal.head?_lexemes (l : Literal) :
    l.lexemes.head? = some (.outside '-') ↔ l.isMinus = true := by
  by_cases hstring : ∃ s, l = .string s
  · obtain ⟨s, rfl⟩ := hstring
    simp [lexemes, isMinus]
  · rw [lexemes_of_ne fun s hs => hstring ⟨s, hs⟩]
    by_cases hnumeral : ∃ s, l = .numeral s
    · obtain ⟨s, rfl⟩ := hnumeral
      simp [sql, isMinus]
    · obtain ⟨w, hw, -, hsql⟩ :=
        sql_signed (fun s hs => hstring ⟨s, hs⟩) fun s hs => hnumeral ⟨s, hs⟩
      have hhead : w.toList.head? ≠ some '-' :=
        fun h => absurd (hw _ (List.mem_of_head? h)) (by decide)
      rw [hsql]
      cases l.isMinus <;> simp [hhead]

theorem Literal.lexemes_ne_nil {l : Literal} (h : ∀ text, l ≠ .numeral text) : l.lexemes ≠ [] := by
  by_cases hstring : ∃ s, l = .string s
  · obtain ⟨s, rfl⟩ := hstring
    exact List.cons_ne_nil _ _
  · obtain ⟨w, -, hne, hsql⟩ := sql_signed (fun s hs => hstring ⟨s, hs⟩) h
    rw [lexemes_of_ne fun s hs => hstring ⟨s, hs⟩, hsql]
    split <;> simp [hne]

namespace Script

theorem lexemes_guarded_cons (body t : Script) :
    ∃ count', lexemes o count (.guarded body :: t) = lexemes o count body ++ lexemes o count' t :=
  ⟨_, by rw [← List.singleton_append, lexemes_append, lexemes_guarded]⟩

theorem head?_lexemes_text {w : String} (hw : Calm w) (hne : w ≠ "") (t : Script) :
    (lexemes o count (.text w :: t)).head? ≠ some (.outside '-') := by
  rw [lexemes_cons]
  cases hlist : w.toList with
  | nil => exact absurd (String.toList_eq_nil_iff.1 hlist) hne
  | cons c cs =>
      intro h
      obtain rfl : c = '-' := by simpa using h
      exact absurd (hw '-' (by simp [hlist])) (by decide)

/-- A text behind what is guarded is not where the script begins. -/
theorem head?_lexemes_guarded (body : Script) {w : String} (hw : Calm w) (hne : w ≠ "")
    (t : Script) : (lexemes o count (.guarded body :: .text w :: t)).head? = some (.outside '-') ↔
      (lexemes o count body).head? = some (.outside '-') := by
  obtain ⟨count', hlexemes⟩ := lexemes_guarded_cons (o := o) count body (.text w :: t)
  rw [hlexemes, List.head?_append]
  cases (lexemes o count body).head? with
  | none => simp [head?_lexemes_text count' hw hne t]
  | some lexeme => rfl

end Script

theorem Expr.head?_lexemes (e : Expr) : (lexemes o count e.body).head? = some (.outside '-') ↔
    e.leadsMinus o.paramsMode = true := by
  -- Only the operand that stands first can begin the text, so the recursion goes down on the left.
  have htext {w : String} (hw : Calm w) (hne : w ≠ "") (t : Script) :
      (lexemes o count (.text w :: t)).head? = some (.outside '-') ↔ false = true :=
    iff_of_false (Script.head?_lexemes_text count hw hne t) Bool.false_ne_true
  have hquoted {quote : Char} {contents : String} {found : List Lexeme} :
      (Lexeme.quoted quote contents :: found).head? = some (.outside '-') ↔ false = true :=
    iff_of_false (by simp) Bool.false_ne_true
  have hempty : ([] : List Lexeme).head? = some (.outside '-') ↔ false = true :=
    iff_of_false (by simp) Bool.false_ne_true
  have hchain (segments : List Ident) (t : Script) (hne : segments ≠ []) :
      (lexemes o count (Script.chain segments ++ t)).head? = some (.outside '-') ↔ false = true := by
    obtain ⟨i, is, rfl⟩ := List.exists_cons_of_ne_nil hne
    cases is <;> exact hquoted
  cases e with
  | ident i => exact hquoted
  | compound segments =>
      rw [body, Script.compound]
      split
      · exact hempty
      · have hne : segments ≠ [] := by rintro rfl; contradiction
        rw [← List.append_nil (Script.chain segments)]
        exact hchain segments [] hne
  | wildcard => exact htext (by decide) (by decide) _
  | qualifiedWildcard qualifiers =>
      rw [body]
      split
      · exact htext (by decide) (by decide) _
      · exact hchain qualifiers _ (by rintro rfl; contradiction)
  | binary left op right =>
      exact (Script.head?_lexemes_guarded count _ (by decide) (by decide) _).trans
        left.head?_lexemes
  | unary op operand =>
      rw [body, lexemes_cons, leadsMinus, lexemes_guarded]
      cases op.sql.toList with
      | nil => exact operand.head?_lexemes
      | cons c cs => simp
  | between e negated low high =>
      exact (Script.head?_lexemes_guarded count _ (by cases negated <;> decide)
        (by cases negated <;> decide) _).trans e.head?_lexemes
  | collate e collation =>
      exact (Script.head?_lexemes_guarded count _ (by decide) (by decide) _).trans e.head?_lexemes
  | apply function args =>
      exact (Script.head?_lexemes_guarded count _ (by decide) (by decide) _).trans
        function.head?_lexemes
  | isNull e negated =>
      exact (Script.head?_lexemes_guarded count _ (by cases negated <;> decide)
        (by cases negated <;> decide) _).trans e.head?_lexemes
  | inList e list negated =>
      exact (Script.head?_lexemes_guarded count _ (by cases negated <;> decide)
        (by cases negated <;> decide) _).trans e.head?_lexemes
  | inQuery e q negated =>
      exact (Script.head?_lexemes_guarded count _ (by cases negated <;> decide)
        (by cases negated <;> decide) _).trans e.head?_lexemes
  | caseOf | cast | existsQuery | extract | paren | subquery =>
      exact htext (by decide) (by decide) _
  | literal l =>
      rw [body, lexemes_literal, Token.found, leadsMinus]
      cases o.paramsMode with
      | true =>
          rw [if_pos rfl, toList_placeholder]
          simp [placeholder]
      | false => exact l.head?_lexemes
  | custom node => exact hempty

end Head

/-! ### Sites that a text of the grammar comes from -/

/-- The site can be written, and it brings no text of its own. -/
def Site.Standard (site : Site) : Prop :=
  site.flaw? = none ∧ site.Free fun _ => False

theorem Site.forall_standard_nest {inside : List Site} :
    (∀ site ∈ nest inside, site.Standard) ↔ ∀ site ∈ inside, site.Standard := by
  have hsink (site : Site) : (site.sink 1).Standard ↔ site.Standard := by
    cases site <;> exact Iff.rfl
  rw [nest, List.forall_mem_cons, List.forall_mem_map]
  simp only [hsink]
  exact ⟨fun h => h.2, fun h => ⟨⟨rfl, trivial⟩, h⟩⟩

theorem Expr.lexemes_ne_nil {o : Options} (count : Nat) {e : Expr}
    (h : ∀ site ∈ e.sites, site.Standard) : lexemes o count e.body ≠ [] := by
  have htext {w : String} (hne : w ≠ "") (count : Nat) (t : Script) :
      lexemes o count (.text w :: t) ≠ [] := by
    rw [lexemes_cons]
    simp [hne]
  have hguarded (body t : Script) {w : String} (hne : w ≠ "") :
      lexemes o count (.guarded body :: .text w :: t) ≠ [] := by
    obtain ⟨count', hlexemes⟩ := Script.lexemes_guarded_cons (o := o) count body (.text w :: t)
    rw [hlexemes]
    simp [htext hne]
  have hchain (segments : List Ident) (t : Script) (hne : segments ≠ []) :
      lexemes o count (Script.chain segments ++ t) ≠ [] := by
    obtain ⟨i, is, rfl⟩ := List.exists_cons_of_ne_nil hne
    cases is <;> exact List.cons_ne_nil _ _
  cases e with
  | ident i => exact List.cons_ne_nil _ _
  | compound segments =>
      rw [sites, Site.forall_standard_nest, Site.compound] at h
      rw [body, Script.compound]
      split at h
      · cases (h _ (List.mem_singleton_self _)).1
      · rename_i hlength
        rw [if_neg hlength, ← List.append_nil (Script.chain segments)]
        exact hchain segments [] (by rintro rfl; contradiction)
  | wildcard => exact htext (by decide) count _
  | qualifiedWildcard qualifiers =>
      rw [body]
      split
      · exact htext (by decide) count _
      · exact hchain qualifiers _ (by rintro rfl; contradiction)
  | unary op operand =>
      simp only [sites, Site.forall_standard_nest, List.forall_mem_append] at h
      have hne : op.sql ≠ "" := by
        cases op with
        | custom text => exact (h.1 _ (List.mem_singleton_self _)).2.elim
        | _ => decide
      exact htext hne count _
  | binary | collate | apply => exact hguarded _ _ (by decide)
  | between e negated low high => exact hguarded _ _ (by cases negated <;> decide)
  | isNull e negated => exact hguarded _ _ (by cases negated <;> decide)
  | inList e list negated => exact hguarded _ _ (by cases negated <;> decide)
  | inQuery e q negated => exact hguarded _ _ (by cases negated <;> decide)
  | caseOf | cast | existsQuery | extract | paren | subquery => exact htext (by decide) count _
  | literal l =>
      rw [sites, Site.forall_standard_nest] at h
      rw [body, lexemes_literal, Token.found]
      cases o.paramsMode with
      | true =>
          rw [if_pos rfl, toList_placeholder]
          simp [placeholder]
      | false =>
          refine l.lexemes_ne_nil ?_
          rintro text rfl
          exact (h _ (List.mem_singleton_self _)).2
  | custom node =>
      rw [sites, Site.forall_standard_nest] at h
      cases (h _ (List.mem_singleton_self _)).1

end TypedSql
