import TypedSql.Proofs.Lexeme
import TypedSql.Proofs.NumberText
import TypedSql.Proofs.Placeholder
import TypedSql.Proofs.Relabel.Layout

/-! Quoting is safe. Where single quotes in strings are doubled, a reader of quoted text finds in the
text of a tree exactly its identifiers and its written strings, with their contents, and what it
finds outside of them does not depend on the contents. -/

namespace TypedSql

open Text

/-- What a reader finds of a literal. -/
def Literal.lexemes : Literal → List Lexeme
  | string s => [.quoted '\'' s]
  | l => (l.sql .standard).toList.map .outside

namespace Token

/-- The token brings no quotes of its own: identifiers and strings are quoted, and the others have
none. -/
def Unquoted : Token → Prop
  | text s => QuoteFree s
  | literal (.numeral s) => QuoteFree s
  | _ => True

/-- What a reader finds of a token, where `count` values are bound before it. -/
def found (o : Options) (count : Nat) : Token → List Lexeme
  | text s => s.toList.map .outside
  | ident i => [.quoted '"' i]
  | literal l =>
    if o.paramsMode then (Piece.placeholder (count + 1)).text.toList.map .outside else l.lexemes

/-- What a reader finds of tokens. -/
def lexemes (o : Options) : (count : Nat) → List Token → List Lexeme
  | _, [] => []
  | count, token :: tokens =>
    token.found o count ++ lexemes o (count + (token.value? o).toList.length) tokens

theorem lexemes_append (o : Options) (count : Nat) (a b : List Token) : lexemes o count (a ++ b) =
    lexemes o count a ++ lexemes o (count + (a.filterMap (value? o)).length) b := by
  induction a generalizing count with
  | nil => rfl
  | cons token a ih =>
      rw [List.cons_append, lexemes, lexemes, ih, List.append_assoc, Nat.add_assoc,
        ← List.length_append, List.filterMap_cons]
      cases token.value? o <;> rfl

end Token

namespace Text

/-- A placeholder is made of its mark and digits. -/
theorem forall_mem_placeholder {p : Char → Prop} (hdigit : ∀ c, c.isDigit = true → p c)
    (hmark : p '$') (index : Nat) : ∀ c ∈ (Piece.placeholder index).text.toList, p c := by
  rw [toList_placeholder, placeholder, List.forall_mem_cons]
  exact ⟨hmark, fun c hc => hdigit c (Nat.isDigit_of_mem_toDigits (by decide) (by decide) hc)⟩

theorem quoteFree_placeholder (index : Nat) : QuoteFree (Piece.placeholder index).text :=
  forall_mem_placeholder (fun _ hc => isQuote_of_isMark (isMark_of_isDigit hc)) rfl index

/-- A literal is read as what it is, where a separator follows. -/
theorem lexemes?_literal (l : Literal) (h : (Token.literal l).Unquoted) {rest : List Char}
    (hrest : Separated rest) : lexemes? .outside ((l.sql .standard).toList ++ rest) =
      (lexemes? .outside rest).map (l.lexemes ++ ·) := by
  have hword (w : String) (hw : Plain w) : lexemes? .outside (w.toList ++ rest) =
      (lexemes? .outside rest).map (w.toList.map .outside ++ ·) :=
    lexemes?_append hw.quoteFree rest
  cases l with
  | null => exact hword "NULL" (by decide)
  | bool b =>
      cases b with
      | false => exact hword "FALSE" (by decide)
      | true => exact hword "TRUE" (by decide)
  | string s => exact lexemes?_quoted rfl s hrest
  | integer n => exact lexemes?_append (numeric_int n).plain.quoteFree rest
  | float x => exact lexemes?_append x.numeric_write.plain.quoteFree rest
  | numeral s => exact lexemes?_append h rest

/-- A token other than a text is read as what it is, where a separator follows. Values that are bound
have no quotes to be doubled. -/
theorem lexemes?_token {o : Options} (hquotes : o.paramsMode = true ∨ o.escaping = .standard)
    (count : Nat) {token : Token} (h : token.Unquoted) {rest : List Char} (hrest : Separated rest) :
    lexemes? .outside ((token.piece o count).text.toList ++ rest) =
      (lexemes? .outside rest).map (token.found o count ++ ·) := by
  cases token with
  | text s => exact lexemes?_append h rest
  | ident i => exact lexemes?_quoted rfl i hrest
  | literal l =>
      rw [Token.piece, Token.found]
      by_cases hmode : o.paramsMode = true
      · rw [if_pos hmode, if_pos hmode]
        exact lexemes?_append (quoteFree_placeholder (count + 1)) rest
      · rw [if_neg hmode, if_neg hmode, hquotes.resolve_left hmode]
        exact lexemes?_literal l h hrest

end Text

namespace Layout

variable {o : Options} {sites : List Site} {s : Script}

/-- Only operators and numerals could bring quotes of their own. -/
theorem unquoted (h : Layout sites s)
    (hops : ∀ op ∈ sites.filterMap Site.operator?, QuoteFree op)
    (hnumerals : ∀ text, Literal.numeral text ∈ sites.filterMap Site.literal? → QuoteFree text) :
    ∀ token ∈ Script.tokens s, token.Unquoted := by
  induction h with
  | nil => exact nofun
  | text hs _ ih =>
      rw [Script.tokens, Step.tokens, List.singleton_append, List.forall_mem_cons]
      exact ⟨hs.quoteFree, ih hops hnumerals⟩
  | operator _ ih =>
      rw [Script.tokens, Step.tokens, List.singleton_append, List.forall_mem_cons]
      exact ⟨hops _ List.mem_cons_self,
        ih (fun op hop => hops op (List.mem_cons_of_mem _ hop)) hnumerals⟩
  | ident _ _ ih =>
      rw [Script.tokens, Step.tokens, List.singleton_append, List.forall_mem_cons]
      exact ⟨trivial, ih hops hnumerals⟩
  | @literal l _ _ _ _ ih =>
      rw [Script.tokens, Step.tokens, List.singleton_append, List.forall_mem_cons]
      refine ⟨?_, ih hops fun text htext => hnumerals text (List.mem_cons_of_mem _ htext)⟩
      cases l with
      | numeral text => exact hnumerals text List.mem_cons_self
      | _ => trivial
  | guarded _ _ _ ihbody ih =>
      rw [List.filterMap_append, Site.operators_nest] at hops
      rw [List.filterMap_append, Site.literals_nest] at hnumerals
      rw [Script.tokens, Step.tokens, List.forall_mem_append]
      exact ⟨ihbody (fun op hop => hops op (List.mem_append_left _ hop))
          (fun text htext => hnumerals text (List.mem_append_left _ htext)),
        ih (fun op hop => hops op (List.mem_append_right _ hop))
          (fun text htext => hnumerals text (List.mem_append_right _ htext))⟩
  | short _ ih | unscaled _ ih | node _ ih => exact ih hops hnumerals

/-- A laid out text is read token by token, because a separator stands after every quoted one. -/
theorem lexemes (h : Layout sites s) (hquotes : o.paramsMode = true ∨ o.escaping = .standard)
    (htokens : ∀ token ∈ Script.tokens s, token.Unquoted) (count : Nat) {rest : List Char}
    (hrest : Separated rest) :
    lexemes? .outside (Token.written o count (Script.tokens s) ++ rest) =
      (lexemes? .outside rest).map (Token.lexemes o count (Script.tokens s) ++ ·) := by
  -- The text after a part is part of the induction, because a quote closes its token only where
  -- what follows it is no further quote.
  induction h generalizing count rest with
  | nil => exact Option.map_id'.symm
  | text _ _ ih | operator _ ih =>
      rw [Script.tokens, Step.tokens, List.singleton_append, List.forall_mem_cons] at htokens
      rw [Script.tokens, Step.tokens, List.singleton_append, Token.written_cons, List.append_assoc,
        Token.piece, Piece.text, lexemes?_append htokens.1, ih htokens.2 _ hrest, Option.map_map,
        Token.lexemes]
      simp only [Function.comp_def, ← List.append_assoc]
      rfl
  | ident hl _ ih | literal hl _ ih =>
      rw [Script.tokens, Step.tokens, List.singleton_append, List.forall_mem_cons] at htokens
      rw [Script.tokens, Step.tokens, List.singleton_append, Token.written_cons, List.append_assoc,
        lexemes?_token hquotes count htokens.1 (hl.separated_written o _ hrest),
        ih htokens.2 _ hrest, Option.map_map, Token.lexemes]
      simp only [Function.comp_def, ← List.append_assoc]
  | guarded hl _ _ ihbody ih =>
      rw [Script.tokens, Step.tokens, List.forall_mem_append] at htokens
      rw [Script.tokens, Step.tokens, Token.written_append, List.append_assoc,
        ihbody htokens.1 count (hl.separated_written o _ hrest), ih htokens.2 _ hrest,
        Option.map_map, Token.lexemes_append]
      simp only [Function.comp_def, ← List.append_assoc]
  | short _ ih | unscaled _ ih | node _ ih =>
      rw [Script.tokens] at htokens ⊢
      exact ih htokens count hrest

end Layout

/-- Takes the contents out of identifiers and strings. -/
def Relabeling.outline : Relabeling where
  ident _ := ""
  literal
    | .string _ => .string ""
    | l => l

/-- A token found without its contents. -/
def Text.Lexeme.hollow : Lexeme → Lexeme
  | outside c => .outside c
  | quoted quote _ => .quoted quote ""

namespace Token

theorem unquoted_relabel_outline (token : Token) :
    (token.relabel .outline).Unquoted ↔ token.Unquoted := by
  cases token with
  | literal l => cases l <;> exact Iff.rfl
  | _ => exact Iff.rfl

theorem map_hollow_outside (cs : List Char) :
    (cs.map Lexeme.outside).map Lexeme.hollow = cs.map .outside := by
  rw [List.map_map]
  rfl

/-- Contents decide nothing but the contents of what is found. -/
theorem map_hollow_found (o : Options) (count : Nat) (token : Token) :
    (token.found o count).map Lexeme.hollow = (token.relabel .outline).found o count := by
  cases token with
  | text s => exact map_hollow_outside s.toList
  | ident i => rfl
  | literal l =>
      rw [relabel, found, found]
      cases o.paramsMode with
      | true => exact map_hollow_outside _
      | false =>
          cases l with
          | string s => rfl
          | _ => exact map_hollow_outside _

theorem length_value?_relabel (ρ : Relabeling) (o : Options) (token : Token) :
    ((token.relabel ρ).value? o).toList.length = (token.value? o).toList.length := by
  cases token with
  | literal l =>
      rw [relabel, value?, value?]
      cases o.paramsMode <;> rfl
  | _ => rfl

theorem map_hollow_lexemes (o : Options) (count : Nat) (tokens : List Token) :
    (lexemes o count tokens).map Lexeme.hollow =
      lexemes o count (tokens.map (relabel .outline)) := by
  induction tokens generalizing count with
  | nil => rfl
  | cons token tokens ih =>
      rw [lexemes, List.map_append, map_hollow_found, ih, List.map_cons, lexemes,
        length_value?_relabel]

/-- What is found of a token in quotes. -/
def quoted? (bound : Bool) : Token → Option (Char × String)
  | ident i => some ('"', i)
  | literal (.string s) => if bound then none else some ('\'', s)
  | _ => none

theorem filterMap_quoted?_outside (cs : List Char) :
    (cs.map Lexeme.outside).filterMap Lexeme.quoted? = [] := by
  rw [List.filterMap_map]
  exact List.filterMap_eq_nil_iff.2 fun _ _ => rfl

theorem filterMap_quoted?_found (o : Options) (count : Nat) (token : Token) :
    (token.found o count).filterMap Lexeme.quoted? = (token.quoted? o.paramsMode).toList := by
  cases token with
  | text s => exact filterMap_quoted?_outside s.toList
  | ident i => rfl
  | literal l =>
      rw [found]
      cases o.paramsMode with
      | true =>
          rw [if_pos rfl, filterMap_quoted?_outside]
          cases l <;> rfl
      | false =>
          rw [if_neg Bool.false_ne_true]
          cases l with
          | string s => rfl
          | _ => exact filterMap_quoted?_outside _

theorem filterMap_quoted?_lexemes (o : Options) (count : Nat) (tokens : List Token) :
    (lexemes o count tokens).filterMap Lexeme.quoted? = tokens.filterMap (quoted? o.paramsMode) := by
  induction tokens generalizing count with
  | nil => rfl
  | cons token tokens ih =>
      rw [lexemes, List.filterMap_append, filterMap_quoted?_found, ih, List.filterMap_cons]
      cases token.quoted? o.paramsMode <;> rfl

end Token

namespace Tree

/-- The tree with the contents of its identifiers and strings taken out. -/
def outline (t : Tree) : Tree :=
  t.relabel .outline

/-- The identifiers of a tree, and its strings where they are written, in the order of the text and
each with its quote. -/
def quoted (bound : Bool) (t : Tree) : List (Char × String) :=
  (t.sites.filterMap Site.token?).filterMap (Token.quoted? bound)

/-- What a reader finds in the text of a tree, if its strings are bound or have their quotes
doubled. -/
theorem read?_tokens {r : Renderer} (hr : r.handlers = {})
    (hquotes : r.options.paramsMode = true ∨ r.options.escaping = .standard) {t : Tree}
    (htokens : ∀ token ∈ Script.tokens t.script, token.Unquoted)
    (hdefects : t.defects r.options.maxDepth = []) :
    ∃ a, (t.report r).result = .ok a ∧
      read? a.sql = some (Token.lexemes r.options 0 (Script.tokens t.script)) := by
  refine ⟨_, result_of_nil hr hdefects, ?_⟩
  have hread := t.layout.lexemes hquotes htokens 0 (show Separated [] from rfl)
  rw [List.append_nil] at hread
  rw [read?, Renderer.finish, Context.sql_putAll_fresh]
  rw [Token.written] at hread
  rw [hread]
  exact congrArg some (List.append_nil _)

/-- The same of a text that is given. -/
theorem read?_of_ok {r : Renderer} (hr : r.handlers = {})
    (hquotes : r.options.paramsMode = true ∨ r.options.escaping = .standard) {t : Tree}
    (htokens : ∀ token ∈ Script.tokens t.script, token.Unquoted) {a : Rendered}
    (h : (t.report r).result = .ok a) :
    read? a.sql = some (Token.lexemes r.options 0 (Script.tokens t.script)) := by
  obtain ⟨a', ha', hread⟩ := read?_tokens hr hquotes htokens
    (((result_iff_defects r hr t).1).1 ⟨a, h⟩)
  rw [h] at ha'
  cases ha'
  exact hread

theorem read?_sql {r : Renderer} (hr : r.handlers = {}) (hescaping : r.options.escaping = .standard)
    {t : Tree} (htokens : ∀ token ∈ Script.tokens t.script, token.Unquoted)
    (hdefects : t.defects r.options.maxDepth = []) :
    ∃ a, (t.report r).result = .ok a ∧
      read? a.sql = some (Token.lexemes r.options 0 (Script.tokens t.script)) :=
  read?_tokens hr (.inr hescaping) htokens hdefects

/-- Where single quotes in strings are doubled, a text whose operators and numerals bring no quotes of
their own is read to its end. The reader finds exactly the identifiers and the written strings of the
tree, in their order and with their contents. Other contents change nothing else: the tree still
renders, and but for the contents the reader finds the same. -/
theorem reads_contents (r : Renderer) (hr : r.handlers = {})
    (hescaping : r.options.escaping = .standard) (t : Tree) (hops : ∀ op ∈ t.operators, QuoteFree op)
    (hnumerals : ∀ text, Literal.numeral text ∈ t.literals → QuoteFree text) (a : Rendered)
    (h : (t.report r).result = .ok a) :
    ∃ found, read? a.sql = some found ∧
      found.filterMap Lexeme.quoted? = t.quoted r.options.paramsMode ∧
      ∀ t' : Tree, t'.outline = t.outline → ∃ a' found',
        (t'.report r).result = .ok a' ∧ read? a'.sql = some found' ∧
          found'.map Lexeme.hollow = found.map Lexeme.hollow := by
  have hdefects := ((result_iff_defects r hr t).1).1 ⟨a, h⟩
  have hunquoted := t.layout.unquoted hops hnumerals
  obtain ⟨a₁, ha₁, hread⟩ := read?_sql hr hescaping hunquoted hdefects
  obtain rfl : a₁ = a := by
    rw [h] at ha₁
    cases ha₁
    rfl
  refine ⟨_, hread, ?_, ?_⟩
  · rw [Token.filterMap_quoted?_lexemes, t.layout.filterMap_tokens fun _ => rfl]
    rfl
  · intro t' houtline
    have hscript : Script.relabel .outline t.script = Script.relabel .outline t'.script := by
      rw [← script_relabel, ← script_relabel]
      exact congrArg script houtline.symm
    have htokens : (Script.tokens t'.script).map (Token.relabel .outline) =
        (Script.tokens t.script).map (Token.relabel .outline) := by
      rw [← Script.tokens_relabel, ← Script.tokens_relabel, hscript]
    have hdefects' : t'.defects r.options.maxDepth = [] := by
      rw [← defects_sites] at hdefects ⊢
      exact t.layout.defects_eq_nil_of_relabel .outline t'.layout hscript hdefects
    have hunquoted' : ∀ token ∈ Script.tokens t'.script, token.Unquoted := by
      intro token htoken
      have hmem := List.mem_map_of_mem (f := Token.relabel .outline) htoken
      rw [htokens] at hmem
      obtain ⟨token₁, htoken₁, he⟩ := List.mem_map.1 hmem
      rw [← Token.unquoted_relabel_outline, ← he, Token.unquoted_relabel_outline]
      exact hunquoted token₁ htoken₁
    obtain ⟨a', ha', hread'⟩ := read?_sql hr hescaping hunquoted' hdefects'
    refine ⟨a', _, ha', hread', ?_⟩
    rw [Token.map_hollow_lexemes, Token.map_hollow_lexemes, htokens]

/-- Quotes inside of an identifier and of a string do not end them. -/
theorem reads_contents_quotes :
    let r : Renderer := { options := { escaping := .standard } }
    let t := expr (.binary (.ident "a\"'") .eq (.literal (.string "'b\"")))
    r.handlers = {} ∧ r.options.escaping = .standard ∧ (∀ op ∈ t.operators, QuoteFree op) ∧
      (∀ text, Literal.numeral text ∈ t.literals → QuoteFree text) ∧
      ∃ a found, (t.report r).result = .ok a ∧ read? a.sql = some found ∧
        found.filterMap Lexeme.quoted? = [('"', "a\"'"), ('\'', "'b\"")] := by
  intro r t
  have hops : ∀ op ∈ t.operators, QuoteFree op := nofun
  have hnumerals : ∀ text, Literal.numeral text ∈ t.literals → QuoteFree text :=
    fun _ h => nomatch List.mem_singleton.1 h
  obtain ⟨found, hread, hquoted, -⟩ := reads_contents r rfl rfl t hops hnumerals _ rfl
  exact ⟨rfl, rfl, hops, hnumerals, _, found, rfl, hread, hquoted⟩

end Tree

end TypedSql
