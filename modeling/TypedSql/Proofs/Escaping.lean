import Mathlib.Algebra.GroupWithZero.Nat
import TypedSql.Proofs.Mode

/-! The two policies for the single quotes in strings. Where literals are bound a policy decides
nothing. Where they are written, both texts of a tree have the same gaps around their literals, and
the one with doubled quotes is longer by the quotes in its strings. -/

namespace TypedSql

namespace Text

theorem length_doubled (quote : Char) (cs : List Char) :
    (doubled quote cs).length = cs.length + cs.count quote := by
  induction cs with
  | nil => rfl
  | cons c cs ih =>
      by_cases hc : c = quote
      · subst hc
        rw [doubled, if_pos rfl, List.length_cons, List.length_cons, ih, List.length_cons,
          List.count_cons_self]
        omega
      · rw [doubled, if_neg hc, List.length_cons, ih, List.length_cons, List.count_cons_of_ne hc]
        omega

theorem length_quoted (quote : Char) (s : String) :
    (quoted quote s).length = (enclosed quote s).length + s.toList.count quote := by
  rw [quoted, enclosed, String.length_ofList, String.length_ofList, List.length_cons,
    List.length_cons, List.length_append, List.length_append, length_doubled]
  omega

theorem doubled_of_not_mem {quote : Char} {cs : List Char} (h : quote ∉ cs) :
    doubled quote cs = cs := by
  induction cs with
  | nil => rfl
  | cons c cs ih =>
      rw [List.mem_cons, not_or] at h
      rw [doubled, if_neg fun hc => h.1 hc.symm, ih h.2]

/-- The length of a text with as many holes as there are texts behind them. -/
theorem length_woven (first : String) {holes rest : List String}
    (h : rest.length = holes.length) : (woven first holes rest).length =
      first.length + (rest.map String.length).sum + (holes.map String.length).sum := by
  induction rest generalizing first holes with
  | nil =>
      obtain rfl := List.length_eq_zero_iff.1 h.symm
      rw [woven, String.length_append]
      rfl
  | cons s rest ih =>
      obtain ⟨hole, holes, rfl⟩ := List.exists_cons_of_length_eq_add_one h.symm
      have hlength : rest.length = holes.length := Nat.succ.inj h
      have hrest := ih (first ++ (hole ++ s)) hlength
      rw [woven, List.zipWith_cons_cons, String.join_cons, ← String.append_assoc, ← woven, hrest,
        String.length_append, String.length_append, List.map_cons, List.map_cons, List.sum_cons,
        List.sum_cons]
      omega

end Text

namespace Literal

/-- How many single quotes stand in a string. Other literals have none. -/
def quotes : Literal → Nat
  | string s => s.toList.count '\''
  | _ => 0

theorem length_sql_standard (l : Literal) :
    (l.sql .standard).length = (l.sql .verbatim).length + l.quotes := by
  cases l with
  | string s => exact Text.length_quoted '\'' s
  | _ => rfl

theorem sql_standard_eq {l : Literal} (h : ∀ s, l = string s → '\'' ∉ s.toList) :
    l.sql .standard = l.sql .verbatim := by
  cases l with
  | string s =>
      rw [sql, sql, Escaping.quote, Escaping.quote, Text.quoted, Text.enclosed,
        Text.doubled_of_not_mem (h s rfl)]
  | _ => rfl

theorem sum_length_standard (ls : List Literal) :
    ((ls.map (sql .standard)).map String.length).sum =
      ((ls.map (sql .verbatim)).map String.length).sum + (ls.map quotes).sum := by
  induction ls with
  | nil => rfl
  | cons l ls ih =>
      have hl := length_sql_standard l
      simp only [List.map_cons, List.sum_cons]
      omega

/-- There are no single quotes if and only if no string holds one. -/
theorem sum_quotes_eq_zero {ls : List Literal} :
    (ls.map quotes).sum = 0 ↔ ∀ s, string s ∈ ls → '\'' ∉ s.toList := by
  rw [List.sum_eq_zero_iff_forall_eq_nat, List.forall_mem_map]
  constructor
  · intro h s hs
    exact List.count_eq_zero.1 (h _ hs)
  · intro h l hl
    cases l with
    | string s => exact List.count_eq_zero.2 (h s hl)
    | _ => rfl

end Literal

/-- The renderer with another policy for the single quotes in strings. -/
def Renderer.withEscaping (r : Renderer) (escaping : Escaping) : Renderer :=
  { r with options := { r.options with escaping := escaping } }

namespace Tree

/-- How many single quotes stand in the strings of a tree. -/
def quotes (t : Tree) : Nat :=
  (t.literals.map Literal.quotes).sum

variable {r : Renderer} (hr : r.handlers = {}) (t : Tree)

include hr

/-- Where literals are bound, a policy makes no difference to a rendering. -/
theorem render_withEscaping (hmode : r.options.paramsMode = true) (escaping : Escaping) :
    (r.withEscaping escaping).render t.script = r.render t.script := by
  rw [← report_result, ← report_result, result_eq (r := r.withEscaping escaping) hr, result_eq hr]
  cases hd : t.defects r.options.maxDepth with
  | cons e ds =>
      rw [show t.defects (r.withEscaping escaping).options.maxDepth = e :: ds from hd]
  | nil =>
      rw [show t.defects (r.withEscaping escaping).options.maxDepth = [] from hd]
      have hmode' : (r.withEscaping escaping).options.paramsMode = true := hmode
      have hfinish (o : Options) (ho : o.paramsMode = true) :
          Renderer.finish (({} : Context).putAll o (Script.tokens t.script)) =
            ⟨String.ofList (Token.chars 0 (Script.tokens t.script)),
              ((Script.tokens t.script).filterMap Token.literal?).map Parameter.ofLiteral⟩ := by
        rw [Renderer.finish, Context.params_putAll ho, Rendered.mk.injEq]
        refine ⟨?_, rfl⟩
        rw [← String.toList_inj, Context.sql_putAll ho, String.toList_ofList]
        rfl
      exact congrArg Except.ok ((hfinish _ hmode').trans (hfinish _ hmode).symm)

/-- The text of a tree without defects, where literals are written. -/
theorem result_written (hmode : r.options.paramsMode = false)
    (hdefects : t.defects r.options.maxDepth = []) (escaping : Escaping) :
    (t.report (r.withEscaping escaping)).result = .ok
      ⟨Text.fill (t.literals.map (Literal.sql escaping)) ((Script.tokens t.script).map Token.fixed?),
        []⟩ := by
  have hmode' : (r.withEscaping escaping).options.paramsMode = false := hmode
  have hparams := Context.params_putAll_of_plain hmode' {} (Script.tokens t.script)
  rw [result_of_nil (r := r.withEscaping escaping) hr hdefects, Renderer.finish, hparams,
    Context.sql_putAll_fresh, Token.join_pieces, Token.holes_of_plain 0 _ hmode',
    t.layout.literals]
  rfl

omit hr

theorem length_gaps_literals :
    (Text.gaps ((Script.tokens t.script).map Token.fixed?)).2.length = t.literals.length := by
  rw [Token.length_gaps_fixed, t.layout.literals, literals]

/-- Without handlers the policy for single quotes matters to nothing but the strings that are written.
Where literals are bound both policies report the same. Where they are written both fail with the same
error, or neither fails; then both texts have the same gaps, with the names and the operators in them,
around the texts of the literals. The text with doubled quotes is longer by the single quotes that
stand in the strings of the tree, so both are the same if and only if there are none. Literals other
than strings are written alike. -/
theorem report_withEscaping (r : Renderer) (hr : r.handlers = {}) (t : Tree) :
    (r.options.paramsMode = true →
        t.report (r.withEscaping .standard) = t.report (r.withEscaping .verbatim)) ∧
      (r.options.paramsMode = false →
        (∃ e, (t.report (r.withEscaping .verbatim)).result = .error (.error e) ∧
            (t.report (r.withEscaping .standard)).result = .error (.error e)) ∨
          ∃ (verbatim standard : Rendered) (first : String) (rest : List String),
            (t.report (r.withEscaping .verbatim)).result = .ok verbatim ∧
            (t.report (r.withEscaping .standard)).result = .ok standard ∧
            verbatim.params = standard.params ∧ rest.length = t.literals.length ∧
            verbatim.sql = Text.woven first (t.literals.map (Literal.sql .verbatim)) rest ∧
            standard.sql = Text.woven first (t.literals.map (Literal.sql .standard)) rest ∧
            standard.sql.length = verbatim.sql.length + t.quotes ∧
            (standard.sql = verbatim.sql ↔
              ∀ s, Literal.string s ∈ t.literals → '\'' ∉ s.toList)) ∧
      ∀ l : Literal, (∀ s, l ≠ .string s) → l.sql .standard = l.sql .verbatim := by
  refine ⟨?_, ?_, fun l hl => Literal.sql_standard_eq fun s hs => absurd hs (hl s)⟩
  · intro hmode
    rw [report_eq, report_eq, Renderer.report, Renderer.report, render_withEscaping hr t hmode,
      render_withEscaping hr t hmode]
    rfl
  · intro hmode
    cases hd : t.defects r.options.maxDepth with
    | cons e ds =>
        exact .inl ⟨e, result_of_cons (r := r.withEscaping .verbatim) hr hd,
          result_of_cons (r := r.withEscaping .standard) hr hd⟩
    | nil =>
        let gaps := Text.gaps ((Script.tokens t.script).map Token.fixed?)
        have hgaps (escaping : Escaping) :
            gaps.2.length = (t.literals.map (Literal.sql escaping)).length := by
          rw [List.length_map]
          exact length_gaps_literals t
        have hlength : (Text.woven gaps.1 (t.literals.map (Literal.sql .standard)) gaps.2).length =
            (Text.woven gaps.1 (t.literals.map (Literal.sql .verbatim)) gaps.2).length
              + t.quotes := by
          rw [Text.length_woven _ (hgaps .standard), Text.length_woven _ (hgaps .verbatim),
            Literal.sum_length_standard, quotes]
          omega
        refine .inr ⟨_, _, gaps.1, gaps.2, result_written hr t hmode hd .verbatim,
          result_written hr t hmode hd .standard, rfl, length_gaps_literals t, rfl, rfl, hlength, ?_⟩
        rw [← Literal.sum_quotes_eq_zero, ← quotes]
        constructor
        · intro hsql
          have hsame := congrArg String.length hsql
          exact Nat.add_left_cancel (hlength.symm.trans hsame)
        · intro hnone
          have htexts : t.literals.map (Literal.sql .standard) =
              t.literals.map (Literal.sql .verbatim) := by
            apply List.map_congr_left
            intro l hl
            apply Literal.sql_standard_eq
            rintro s rfl
            exact Literal.sum_quotes_eq_zero.1 hnone s hl
          rw [Text.fill, Text.fill, htexts]

/-- The quotes in a name, in an operator and in a numeral stay as they are, and those in the default
and in the condition of a column are doubled. -/
theorem report_withEscaping_default :
    let condition : Expr :=
      .binary (.literal (.numeral "1'")) (.custom "'") (.literal (.string "''"))
    let column : Column :=
      { name := "c'", type := .type .text, default := some (.literal (.string "it's")),
        constraints := [{ rule := .check condition }] }
    let t := statement (.createTable { name := .simple "t", columns := [column] })
    (({} : Renderer).handlers = {} ∧ ({} : Renderer).options.paramsMode = false) ∧
      (Renderer.binding.handlers = {} ∧ Renderer.binding.options.paramsMode = true) ∧
      t.report (Renderer.binding.withEscaping .standard) =
        t.report (Renderer.binding.withEscaping .verbatim) ∧
      ∃ verbatim standard,
        (t.report (({} : Renderer).withEscaping .verbatim)).result = .ok verbatim ∧
        (t.report (({} : Renderer).withEscaping .standard)).result = .ok standard ∧
        verbatim.sql = "CREATE TABLE \"t\" (\"c'\" TEXT DEFAULT 'it's' CHECK (1' ' ''''))" ∧
        standard.sql = "CREATE TABLE \"t\" (\"c'\" TEXT DEFAULT 'it''s' CHECK (1' ' ''''''))" ∧
        standard.sql.length = verbatim.sql.length + 3 := by
  intro condition column t
  have hplain : (t.report (({} : Renderer).withEscaping .verbatim)).result =
      .ok ⟨"CREATE TABLE \"t\" (\"c'\" TEXT DEFAULT 'it's' CHECK (1' ' ''''))", []⟩ := by cbv
  have hdoubled : (t.report (({} : Renderer).withEscaping .standard)).result =
      .ok ⟨"CREATE TABLE \"t\" (\"c'\" TEXT DEFAULT 'it''s' CHECK (1' ' ''''''))", []⟩ := by cbv
  have hquotes : t.quotes = 3 := by cbv
  obtain ⟨-, hwritten, -⟩ := report_withEscaping {} rfl t
  obtain ⟨e, h, -⟩ | ⟨verbatim, standard, -, -, hverbatim, hstandard, -, -, -, -, hlength, -⟩ :=
    hwritten rfl
  · rw [hplain] at h
    cases h
  · rw [hplain] at hverbatim
    rw [hdoubled] at hstandard
    rw [hquotes] at hlength
    cases hverbatim
    cases hstandard
    exact ⟨⟨rfl, rfl⟩, ⟨rfl, rfl⟩, (report_withEscaping .binding rfl t).1 rfl, _, _, hplain, hdoubled,
      rfl, rfl, hlength⟩

end Tree

end TypedSql
