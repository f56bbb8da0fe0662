import TypedSql.Proofs.Bracket.Statement

/-! Brackets balance. Of a rendered text the characters outside of quoted tokens are kept: among them no
bracket is closed before it is opened, and all are closed at the end. -/

namespace TypedSql

namespace Text

/-- The characters outside of quoted tokens, from a position on. The text may end inside a token. -/
def unquoted : Position → List Char → List Char
  | _, [] => []
  | .outside, c :: rest =>
    if isQuote c then unquoted (.inside c []) rest else c :: unquoted .outside rest
  | .inside quote cs, c :: rest =>
    if c = quote then unquoted (.behind quote cs) rest else unquoted (.inside quote (cs ++ [c])) rest
  | .behind quote cs, c :: rest =>
    if c = quote then unquoted (.inside quote (cs ++ [quote])) rest
    else if isQuote c then unquoted (.inside c []) rest
    else c :: unquoted .outside rest

/-- Outside of quoted tokens no start of the text closes more brackets than it opens, and the whole text
closes all that it opens. -/
structure Matched (s : String) : Prop where
  closed_le : ∀ before, before <+: s.toList →
    (unquoted .outside before).count ')' ≤ (unquoted .outside before).count '('
  closed_eq : (unquoted .outside s.toList).count ')' = (unquoted .outside s.toList).count '('

/-- A character that was found outside of all tokens. -/
def Lexeme.outside? : Lexeme → Option Char
  | outside c => some c
  | quoted _ _ => none

theorem filterMap_outside?_cons (c : Char) (found : List Lexeme) :
    (Lexeme.outside c :: found).filterMap Lexeme.outside? = c :: found.filterMap Lexeme.outside? :=
  rfl

/-- The two readers agree on a text that the strict one reads to its end. -/
theorem unquoted_eq {position : Position} {cs : List Char} {found : List Lexeme}
    (h : lexemes? position cs = some found) :
    unquoted position cs = found.filterMap Lexeme.outside? := by
  induction cs generalizing position found with
  | nil => cases position <;> cases h <;> rfl
  | cons c rest ih =>
      have hout {found : List Lexeme} (h : (if isQuote c then lexemes? (.inside c []) rest
          else (lexemes? .outside rest).map (.outside c :: ·)) = some found) :
          (if isQuote c then unquoted (.inside c []) rest else c :: unquoted .outside rest) =
            found.filterMap Lexeme.outside? := by
        by_cases hc : isQuote c = true
        · rw [if_pos hc] at h ⊢
          exact ih h
        · rw [if_neg hc, Option.map_eq_some_iff] at h
          obtain ⟨tail, htail, rfl⟩ := h
          rw [if_neg hc, ih htail, filterMap_outside?_cons]
      cases position with
      | outside => exact hout h
      | inside quote contents =>
          rw [lexemes?] at h
          rw [unquoted]
          by_cases hc : c = quote
          · rw [if_pos hc] at h ⊢
            exact ih h
          · rw [if_neg hc] at h ⊢
            exact ih h
      | behind quote contents =>
          rw [lexemes?] at h
          rw [unquoted]
          by_cases hc : c = quote
          · rw [if_pos hc] at h ⊢
            exact ih h
          · rw [if_neg hc, Option.map_eq_some_iff] at h
            obtain ⟨tail, htail, rfl⟩ := h
            rw [if_neg hc, hout htail, List.filterMap_cons_none rfl]

/-- What is read of a start of a text is a start of what is read of the text. -/
theorem unquoted_prefix (position : Position) (before rest : List Char) :
    unquoted position before <+: unquoted position (before ++ rest) := by
  induction before generalizing position with
  | nil => cases position <;> exact List.nil_prefix
  | cons c before ih =>
      rw [List.cons_append]
      cases position with
      | outside =>
          rw [unquoted, unquoted]
          split
          · exact ih _
          · exact List.cons_prefix_cons.2 ⟨rfl, ih _⟩
      | inside quote contents =>
          rw [unquoted, unquoted]
          split <;> exact ih _
      | behind quote contents =>
          rw [unquoted, unquoted]
          split
          · exact ih _
          · split
            · exact ih _
            · exact List.cons_prefix_cons.2 ⟨rfl, ih _⟩

theorem level_count {c : Char} {depth : Nat} (h : ¬ (c = ')' ∧ depth = 0)) :
    depth + (if c = '(' then 1 else 0) = level c depth + (if c = ')' then 1 else 0) := by
  rw [level]
  by_cases hopens : c = '('
  · subst hopens
    rfl
  · rw [if_neg hopens, if_neg hopens]
    by_cases hcloses : c = ')'
    · have hpos : depth ≠ 0 := fun hzero => h ⟨hcloses, hzero⟩
      rw [if_pos hcloses, if_pos hcloses]
      omega
    · rw [if_neg hcloses, if_neg hcloses]

/-- The depth behind what was found is the number of brackets that were opened and not closed. -/
theorem depth?_count {found : List Lexeme} {depth d : Nat} (h : depth? depth found = some d) :
    depth + (found.filterMap Lexeme.outside?).count '(' =
      d + (found.filterMap Lexeme.outside?).count ')' := by
  induction found generalizing depth with
  | nil =>
      cases h
      rfl
  | cons lexeme found ih =>
      cases lexeme with
      | quoted quote contents => exact ih h
      | outside c =>
          rw [depth?] at h
          by_cases hclose : c = ')' ∧ depth = 0
          · rw [if_pos hclose] at h
            cases h
          · rw [if_neg hclose] at h
            have hrest := ih h
            have hlevel := level_count hclose
            rw [filterMap_outside?_cons, List.count_cons, List.count_cons]
            simp only [beq_iff_eq]
            omega

theorem matched_of_depth? {s : String} {found : List Lexeme} (hread : read? s = some found)
    (hdepth : depth? 0 found = some 0) : Matched s where
  closed_le before hbefore := by
    obtain ⟨rest, hrest⟩ := hbefore
    have hstart := unquoted_prefix .outside before rest
    rw [hrest, unquoted_eq hread, List.prefix_filterMap_iff] at hstart
    obtain ⟨start, ⟨tail, rfl⟩, hstart⟩ := hstart
    rw [depth?_append, Option.bind_eq_some_iff] at hdepth
    obtain ⟨d, hd, -⟩ := hdepth
    have hcount := depth?_count hd
    rw [hstart]
    omega
  closed_eq := by
    have hcount := depth?_count hdepth
    rw [unquoted_eq hread]
    omega

end Text

open Text

namespace Tree

theorem balanced (o : Options) (t : Tree) (h : ∀ site ∈ t.sites, site.Free BracketFree) :
    Script.Balanced o t.script := by
  cases t with
  | expr e => exact e.balanced o h
  | query q => exact q.balanced o h
  | select s => exact s.balanced o h
  | source s => exact s.balanced o h
  | statement s => exact s.balanced o h

/-- Custom operators and numerals are all that comes into a text as it is. -/
theorem free {p : String → Prop} {t : Tree} (hops : ∀ op ∈ t.operators, p op)
    (hnumerals : ∀ text, Literal.numeral text ∈ t.literals → p text) :
    ∀ site ∈ t.sites, site.Free p := by
  intro site hsite
  cases site with
  | operator text => exact hops text (List.mem_filterMap.2 ⟨_, hsite, rfl⟩)
  | literal l =>
      cases l with
      | numeral text => exact hnumerals text (List.mem_filterMap.2 ⟨_, hsite, rfl⟩)
      | _ => trivial
  | _ => trivial

/-- Where strings are bound or have their quotes doubled, and neither a custom operator nor a numeral
brings quotes or brackets of its own, the brackets of a rendered text balance: the text does not end
inside a quoted token, and outside of these no bracket is closed before it is opened and none is left
open. -/
theorem sql_matched (r : Renderer) (hr : r.handlers = {})
    (hquotes : r.options.paramsMode = true ∨ r.options.escaping = .standard) (t : Tree)
    (hops : ∀ op ∈ t.operators, QuoteFree op ∧ BracketFree op)
    (hnumerals : ∀ text, Literal.numeral text ∈ t.literals → QuoteFree text ∧ BracketFree text)
    (a : Rendered) (h : (t.report r).result = .ok a) :
    (∃ found, read? a.sql = some found) ∧ Matched a.sql := by
  have hunquoted := t.layout.unquoted (fun op hop => (hops op hop).1)
    fun text htext => (hnumerals text htext).1
  have hfree := free (fun op hop => (hops op hop).2) fun text htext => (hnumerals text htext).2
  have hread := read?_of_ok hr hquotes hunquoted h
  exact ⟨⟨_, hread⟩, matched_of_depth? hread (t.balanced r.options hfree 0)⟩

/-- Brackets in identifiers and strings do not count, and those around the columns, the row, the nested
query and its list do. -/
theorem sql_matched_insert :
    let r : Renderer := { options := { escaping := .standard } }
    let q : Query :=
      { select := { items := [⟨.literal (.string "')("), none⟩],
                    filter := some (.inList (.ident "a)") [.literal (.numeral "1.50")] false) } }
    let t := statement (.insert
      { table := .simple "t(", columns := ["a\")"],
        rows := .values [[.value (.binary (.subquery q) (.custom "->>") (.ident "b"))]] })
    r.handlers = {} ∧ (r.options.paramsMode = true ∨ r.options.escaping = .standard) ∧
      (∀ op ∈ t.operators, QuoteFree op ∧ BracketFree op) ∧
      (∀ text, Literal.numeral text ∈ t.literals → QuoteFree text ∧ BracketFree text) ∧
      ∃ a, (t.report r).result = .ok a ∧
        a.sql = "INSERT INTO \"t(\" (\"a\"\")\") VALUES ((SELECT ''')(' WHERE \"a)\" IN (1.50)) ->> \"b\")" ∧
        (∃ found, read? a.sql = some found) ∧ Matched a.sql := by
  intro r q t
  have hops : ∀ op ∈ t.operators, QuoteFree op ∧ BracketFree op := by
    have hlist : t.operators = ["->>"] := by cbv
    rw [hlist, List.forall_mem_singleton]
    exact ⟨(by decide : Plain "->>").quoteFree, by decide⟩
  have hnumerals : ∀ text, Literal.numeral text ∈ t.literals → QuoteFree text ∧ BracketFree text := by
    have hlist : t.literals = [.string "')(", .numeral "1.50"] := by cbv
    intro text htext
    rw [hlist] at htext
    obtain rfl : text = "1.50" := by simpa using htext
    exact ⟨(by decide : Plain "1.50").quoteFree, by decide⟩
  have hdefects : t.defects r.options.maxDepth = [] := by cbv
  have hresult := result_of_nil (r := r) rfl hdefects
  exact ⟨rfl, .inr rfl, hops, hnumerals, _, hresult, by cbv,
    sql_matched r rfl (.inr rfl) t hops hnumerals _ hresult⟩

end Tree

end TypedSql
