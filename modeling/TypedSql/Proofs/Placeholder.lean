import TypedSql.Proofs.Written

/-! Placeholders and the values behind them. Where literals are bound, the values are the literals of
the tree in their order, and a reader that skips what is quoted finds the placeholders in the same
order, counted from one. -/

namespace TypedSql

namespace Text

/-- Reads the `$` tokens that stand outside double quotes, each with as many digits as follow. A
doubled quote closes the quoted part and opens it again at once. -/
def scan : (quoted : Bool) → List Char → List (List Char)
  | _, [] => []
  | true, c :: cs => scan (c != '"') cs
  | false, c :: cs =>
    if c = '"' then scan true cs
    else if c = '$' ∧ cs.head?.any Char.isDigit then
      (c :: cs.takeWhile Char.isDigit) :: scan false cs
    else scan false cs

/-- The `$` tokens of a text outside its double-quoted parts. -/
def placeholders (s : String) : List String :=
  (scan false s.toList).map String.ofList

/-- The characters of a placeholder. -/
def placeholder (index : Nat) : List Char :=
  '$' :: Nat.toDigits 10 index

theorem toList_placeholder (index : Nat) :
    (Piece.placeholder index).text.toList = placeholder index := by
  rw [Piece.text, placeholder, ← Nat.toList_repr, ← Nat.toString_eq_repr]
  exact String.toList_append

/-- A reader passes over text that neither opens a quoted part nor starts a token. -/
theorem scan_append {cs : List Char} (h : ∀ c ∈ cs, c ≠ '"' ∧ c ≠ '$') (rest : List Char) :
    scan false (cs ++ rest) = scan false rest := by
  induction cs with
  | nil => rfl
  | cons c cs ih =>
      have hc := h c List.mem_cons_self
      rw [List.cons_append, scan, if_neg hc.1, if_neg (fun hd => hc.2 hd.1)]
      exact ih fun d hd => h d (List.mem_cons_of_mem c hd)

theorem scan_doubled (cs rest : List Char) :
    scan true (doubled '"' cs ++ '"' :: rest) = scan false rest := by
  induction cs with
  | nil => rfl
  | cons c cs ih =>
      by_cases hc : c = '"'
      · rw [doubled, if_pos hc]
        exact ih
      · have hne : (c != '"') = true := bne_iff_ne.2 hc
        rw [doubled, if_neg hc, List.cons_append, scan, hne]
        exact ih

theorem scan_quoted (i : Ident) (rest : List Char) :
    scan false ((quoted '"' i).toList ++ rest) = scan false rest := by
  rw [toList_quoted_append, scan, if_pos rfl]
  exact scan_doubled i.toList rest

theorem isDigit_of_isSeparator {c : Char} (h : isSeparator c = true) : c.isDigit = false := by
  simp only [isSeparator, Bool.or_eq_true, decide_eq_true_eq] at h
  rcases h with (((rfl | rfl) | rfl) | rfl) | rfl <;> rfl

/-- A placeholder is read whole, because no digit follows it. -/
theorem scan_placeholder (index : Nat) {rest : List Char} (hrest : Separated rest) :
    scan false (placeholder index ++ rest) = placeholder index :: scan false rest := by
  have hdigits : ∀ c ∈ Nat.toDigits 10 index, c.isDigit = true := fun c hc =>
    Nat.isDigit_of_mem_toDigits (by decide) (by decide) hc
  have hhead : (Nat.toDigits 10 index ++ rest).head?.any Char.isDigit = true := by
    obtain ⟨d, ds, hds⟩ := List.exists_cons_of_ne_nil
      (Nat.toDigits_ne_nil : Nat.toDigits 10 index ≠ [])
    rw [hds] at hdigits ⊢
    exact hdigits d List.mem_cons_self
  have hrestdigits : rest.takeWhile Char.isDigit = [] := by
    cases rest with
    | nil => rfl
    | cons c cs =>
        have hc : c.isDigit = false := isDigit_of_isSeparator hrest
        rw [List.takeWhile_cons, hc]
        rfl
  have htake : (Nat.toDigits 10 index ++ rest).takeWhile Char.isDigit = Nat.toDigits 10 index := by
    rw [List.takeWhile_append_of_pos hdigits, hrestdigits, List.append_nil]
  have hskip : scan false (Nat.toDigits 10 index ++ rest) = scan false rest :=
    scan_append (fun c hc => by
      have hd := hdigits c hc
      constructor <;> (rintro rfl; exact absurd hd (by decide))) rest
  rw [placeholder, List.cons_append, scan, if_neg (by decide), if_pos ⟨rfl, hhead⟩, htake, hskip]

end Text

namespace Token

def literal? : Token → Option Literal
  | literal l => some l
  | _ => none

/-- The characters of tokens where literals are bound, and `count` values have been bound before. -/
def chars : (count : Nat) → List Token → List Char
  | _, [] => []
  | count, text s :: tokens => s.toList ++ chars count tokens
  | count, ident i :: tokens => (Text.quoted '"' i).toList ++ chars count tokens
  | count, literal _ :: tokens => Text.placeholder (count + 1) ++ chars (count + 1) tokens

variable {o : Options} (hmode : o.paramsMode = true)

include hmode

theorem value?_of_bound (token : Token) : token.value? o = token.literal?.map Parameter.ofLiteral := by
  cases token with
  | literal l => rw [value?, if_pos hmode, literal?, Option.map_some]
  | _ => rfl

theorem filterMap_value?_of_bound (tokens : List Token) : tokens.filterMap (value? o) =
    (tokens.filterMap literal?).map Parameter.ofLiteral := by
  rw [funext (value?_of_bound hmode), List.map_filterMap]

/-- Where literals are bound, the characters do not depend on the other options. -/
theorem written_of_bound (count : Nat) (tokens : List Token) :
    written o count tokens = chars count tokens := by
  induction tokens generalizing count with
  | nil => rfl
  | cons token tokens ih =>
      rw [written_cons, ih]
      cases token with
      | literal l =>
          rw [piece, value?, if_pos hmode, if_pos hmode, Text.toList_placeholder, chars]
          rfl
      | _ => rfl

omit hmode

theorem chars_append (count : Nat) (a b : List Token) :
    chars count (a ++ b) = chars count a ++ chars (count + (a.filterMap literal?).length) b := by
  have hmode : ({ paramsMode := true } : Options).paramsMode = true := rfl
  rw [← written_of_bound hmode, written_append, written_of_bound hmode, written_of_bound hmode,
    filterMap_value?_of_bound hmode, List.length_map]

end Token

namespace Context

variable {o : Options}

theorem params_putAll (hmode : o.paramsMode = true) (c : Context) (tokens : List Token) :
    (c.putAll o tokens).params.toList =
      c.params.toList ++ (tokens.filterMap Token.literal?).map Parameter.ofLiteral := by
  rw [values_putAll, Token.filterMap_value?_of_bound hmode]

theorem sql_putAll (hmode : o.paramsMode = true) (c : Context) (tokens : List Token) :
    (c.putAll o tokens).sql.toList = c.sql.toList ++ Token.chars c.params.size tokens := by
  rw [sql_eq_join, pieces_putAll, Piece.join_append, String.toList_append, ← sql_eq_join,
    ← Token.written_of_bound hmode, Token.written]

end Context

namespace Site

/-- The token of an identifier or a literal. -/
def token? : Site → Option Token
  | ident i => some (.ident i)
  | literal l => some (.literal l)
  | _ => none

def literal? : Site → Option Literal
  | literal l => some l
  | _ => none

def operator? : Site → Option String
  | operator text => some text
  | _ => none

theorem tokens_nest (inside : List Site) :
    (nest inside).filterMap token? = inside.filterMap token? :=
  filterMap_nest (fun _ => rfl) inside

theorem literals_nest (inside : List Site) :
    (nest inside).filterMap literal? = inside.filterMap literal? :=
  filterMap_nest (fun _ => rfl) inside

theorem operators_nest (inside : List Site) :
    (nest inside).filterMap operator? = inside.filterMap operator? :=
  filterMap_nest (fun _ => rfl) inside

end Site

/-- What can follow anything is separated, also where it writes nothing. -/
theorem Script.Leads.separated {s : Script} (hs : Leads s) (count : Nat) {rest : List Char}
    (hrest : Text.Separated rest) : Text.Separated (Token.chars count (tokens s) ++ rest) := by
  have hmode : ({ paramsMode := true } : Options).paramsMode = true := rfl
  rw [← Token.written_of_bound hmode]
  exact hs.separated_written _ count hrest

namespace Layout

variable {sites : List Site} {s : Script}

/-- The tokens other than texts are those of the sites, in the same order. -/
theorem filterMap_tokens {α : Type} {f : Token → Option α} (hf : ∀ s, f (.text s) = none)
    (h : Layout sites s) :
    (Script.tokens s).filterMap f = (sites.filterMap Site.token?).filterMap f := by
  induction h with
  | nil =>
      rw [Script.tokens]
      rfl
  | text _ _ ih =>
      rw [Script.tokens, Step.tokens, List.singleton_append, List.filterMap_cons_none (hf _), ih]
  | operator _ ih =>
      rw [Script.tokens, Step.tokens, List.singleton_append, List.filterMap_cons_none (hf _), ih]
      rfl
  | ident _ _ ih | literal _ _ ih =>
      rw [Script.tokens, Step.tokens, List.filterMap_append, ih]
      exact List.filterMap_append.symm
  | guarded _ _ _ ihbody ih =>
      rw [Script.tokens, Step.tokens, List.filterMap_append, List.filterMap_append, ihbody, ih,
        Site.tokens_nest, List.filterMap_append]
  | short _ ih | unscaled _ ih | node _ ih =>
      rw [Script.tokens, List.filterMap_append, ih]
      rfl

/-- The tokens hold the literals of the sites, in the same order. -/
theorem literals (h : Layout sites s) :
    (Script.tokens s).filterMap Token.literal? = sites.filterMap Site.literal? := by
  have hliteral (site : Site) : site.token?.bind Token.literal? = site.literal? := by
    cases site <;> rfl
  rw [h.filterMap_tokens fun _ => rfl, List.filterMap_filterMap]
  exact congrArg (sites.filterMap ·) (funext hliteral)

/-- The placeholders in what a layout writes: one for each literal, counted on from the values that
were bound before. -/
theorem scan (h : Layout sites s)
    (hops : ∀ op ∈ sites.filterMap Site.operator?, '"' ∉ op.toList ∧ '$' ∉ op.toList)
    (count : Nat) {rest : List Char} (hrest : Text.Separated rest) :
    Text.scan false (Token.chars count (Script.tokens s) ++ rest) =
      (List.range' (count + 1) (sites.filterMap Site.literal?).length).map Text.placeholder
        ++ Text.scan false rest := by
  -- The text after a part is part of the induction, because a placeholder ends only where what
  -- follows it is no digit.
  induction h generalizing count rest with
  | nil => rfl
  | @text text sites steps hs _ ih =>
      have hplain : ∀ c ∈ text.toList, c ≠ '"' ∧ c ≠ '$' := by
        intro c hc
        have hmark := hs c hc
        constructor <;> (rintro rfl; exact absurd hmark (by decide))
      rw [Script.tokens, Step.tokens, List.singleton_append, Token.chars, List.append_assoc,
        Text.scan_append hplain]
      exact ih hops count hrest
  | @operator text sites steps _ ih =>
      have hop := hops text List.mem_cons_self
      have hplain : ∀ c ∈ text.toList, c ≠ '"' ∧ c ≠ '$' := by
        intro c hc
        exact ⟨ne_of_mem_of_not_mem hc hop.1, ne_of_mem_of_not_mem hc hop.2⟩
      rw [Script.tokens, Step.tokens, List.singleton_append, Token.chars, List.append_assoc,
        Text.scan_append hplain]
      exact ih (fun op hmem => hops op (List.mem_cons_of_mem _ hmem)) count hrest
  | ident _ _ ih =>
      rw [Script.tokens, Step.tokens, List.singleton_append, Token.chars, List.append_assoc,
        Text.scan_quoted]
      exact ih hops count hrest
  | literal hl _ ih =>
      rw [Script.tokens, Step.tokens, List.singleton_append, Token.chars, List.append_assoc,
        Text.scan_placeholder _ (hl.separated _ hrest), ih hops (count + 1) hrest]
      rfl
  | @guarded inside sites body steps hl hbody _ ihbody ih =>
      rw [List.filterMap_append, Site.operators_nest] at hops
      have hopsbody := fun op hop => hops op (List.mem_append_left _ hop)
      have hopsrest := fun op hop => hops op (List.mem_append_right _ hop)
      have hcount (n : Nat) : count + n + 1 = count + 1 + n := by omega
      rw [Script.tokens, Step.tokens, Token.chars_append, List.append_assoc,
        ihbody hopsbody count (hl.separated _ hrest), ih hopsrest _ hrest, hbody.literals,
        List.filterMap_append, Site.literals_nest, List.length_append, hcount,
        ← List.range'_append_1, List.map_append, List.append_assoc]
  | short _ ih | unscaled _ ih | node _ ih =>
      rw [Script.tokens]
      exact ih hops count hrest

end Layout

namespace Tree

/-- The literals of a tree in the order of its text. -/
def literals (t : Tree) : List Literal :=
  t.sites.filterMap Site.literal?

/-- The custom operators of a tree. -/
def operators (t : Tree) : List String :=
  t.sites.filterMap Site.operator?

/-- Where literals are bound, the values of a finished rendering are the literals of the tree. Unless
a custom operator brings quotes or dollar signs of its own, the placeholders that stand outside the
quoted identifiers are `$1`, `$2` and so on up to the number of values, in this order. -/
theorem params_eq_literals (r : Renderer) (hr : r.handlers = {})
    (hmode : r.options.paramsMode = true) (t : Tree) (a : Rendered)
    (h : (t.report r).result = .ok a) :
    a.params = t.literals.map Parameter.ofLiteral ∧
      ((∀ op ∈ t.operators, '"' ∉ op.toList ∧ '$' ∉ op.toList) →
        Text.placeholders a.sql = (List.range a.params.length).map fun i => s!"${i + 1}") := by
  have ha : a = Renderer.finish (({} : Context).putAll r.options (Script.tokens t.script)) := by
    rw [result_eq hr] at h
    split at h
    · cases h
      rfl
    · cases h
  have hparams : a.params = t.literals.map Parameter.ofLiteral := by
    rw [ha, Renderer.finish, Context.params_putAll hmode, t.layout.literals]
    rfl
  refine ⟨hparams, ?_⟩
  intro hops
  have hsql : a.sql.toList = Token.chars 0 (Script.tokens t.script) := by
    rw [ha, Renderer.finish, Context.sql_putAll hmode]
    rfl
  have hscan := t.layout.scan hops 0 (show Text.Separated [] from rfl)
  have hlength : a.params.length = (t.sites.filterMap Site.literal?).length := by
    rw [hparams, List.length_map, literals]
  rw [List.append_nil, ← hlength, Text.scan, List.append_nil] at hscan
  calc Text.placeholders a.sql
      = ((List.range' (0 + 1) a.params.length).map Text.placeholder).map String.ofList := by
        rw [Text.placeholders, hsql, hscan]
    _ = (List.range a.params.length).map fun i => String.ofList (Text.placeholder (i + 1)) := by
        rw [List.range'_eq_map_range, List.map_map, List.map_map]
        apply List.map_congr_left
        intro i _
        rw [Function.comp_apply, Function.comp_apply, Nat.zero_add, Nat.add_comm]
    _ = (List.range a.params.length).map fun i => s!"${i + 1}" := by
        apply List.map_congr_left
        intro i _
        rw [← Text.toList_placeholder, String.ofList_toList, Piece.text]

/-- A dollar sign inside an identifier is no placeholder. -/
theorem params_eq_literals_between :
    ∃ a, ((expr (.between (.ident "$9") false (.literal (.integer 7)) (.literal .null))).report
        .binding).result = .ok a ∧
      a.params = [.integer 7, .null] ∧ Text.placeholders a.sql = ["$1", "$2"] := by
  obtain ⟨hparams, hplaceholders⟩ := params_eq_literals .binding rfl rfl
    (expr (.between (.ident "$9") false (.literal (.integer 7)) (.literal .null))) _ rfl
  exact ⟨_, rfl, hparams, hplaceholders nofun⟩

end Tree

end TypedSql
