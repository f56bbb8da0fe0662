import TypedSql.Proofs.Carry
import TypedSql.Proofs.Defect

/-! Renderings are composed of the renderings of their parts. What a tree has around a place is the
same for every node there, up to the numbers of the placeholders, which count on from part to
part. -/

namespace TypedSql

namespace Piece

/-- The piece where `k` more values have been bound before. -/
def shift (k : Nat) : Piece → Piece
  | raw s => raw s
  | placeholder index => placeholder (index + k)

/-- The text of pieces. -/
def join (pieces : List Piece) : String :=
  String.join (pieces.map text)

theorem join_append (a b : List Piece) : join (a ++ b) = join a ++ join b := by
  rw [join, List.map_append, String.join_append, join, join]

theorem shift_zero (pieces : List Piece) : pieces.map (shift 0) = pieces := by
  have hshift : shift 0 = id := by
    funext piece
    cases piece <;> rfl
  rw [hshift, List.map_id]

theorem shift_shift (j k : Nat) (pieces : List Piece) :
    (pieces.map (shift j)).map (shift k) = pieces.map (shift (j + k)) := by
  rw [List.map_map]
  congr 1
  funext piece
  cases piece with
  | raw s => rfl
  | placeholder index => exact congrArg placeholder (Nat.add_assoc index j k)

end Piece

namespace Context

variable {o : Options}

theorem sql_eq_join (c : Context) : c.sql = Piece.join c.pieces.toList := by
  rw [sql, ← Array.foldl_toList, Piece.join, String.join_eq_foldl, List.foldl_map]

/-- The context with all of another context after it. -/
def extend (c d : Context) : Context where
  pieces := c.pieces ++ d.pieces.map (Piece.shift c.params.size)
  params := c.params ++ d.params
  depth := c.depth

theorem pieces_extend (c d : Context) : (c.extend d).pieces.toList =
    c.pieces.toList ++ d.pieces.toList.map (Piece.shift c.params.size) := by
  rw [extend, Array.toList_append, Array.toList_map]

theorem params_extend (c d : Context) : (c.extend d).params = c.params ++ d.params := rfl

theorem extend_write (c d : Context) (s : String) :
    (c.extend d).write s = c.extend (d.write s) := by
  rw [extend, extend, write, write, Array.map_push, Array.push_append]
  rfl

theorem extend_bind (c d : Context) (p : Parameter) :
    (c.extend d).bind p = c.extend (d.bind p) := by
  have hindex : (c.params ++ d.params).size + 1 = d.params.size + 1 + c.params.size := by
    rw [Array.size_append]
    omega
  rw [extend, extend, bind, bind, Array.map_push, Array.push_append, Array.push_append, hindex]
  rfl

theorem extend_put (c d : Context) (token : Token) :
    (c.extend d).put o token = c.extend (d.put o token) := by
  cases token with
  | text s => exact extend_write c d s
  | ident i => exact extend_write c d _
  | literal l =>
      rw [put, put, literal, literal]
      cases o.paramsMode with
      | false => exact extend_write c d _
      | true => exact extend_bind c d _

theorem extend_putAll (c d : Context) (tokens : List Token) :
    (c.extend d).putAll o tokens = c.extend (d.putAll o tokens) := by
  induction tokens generalizing d with
  | nil => rfl
  | cons token tokens ih => rw [putAll_cons, extend_put, ih, putAll_cons]

/-- What is put after a context is what is put into a fresh one, moved to the end. -/
theorem putAll_eq_extend (c : Context) (tokens : List Token) :
    c.putAll o tokens = c.extend (({} : Context).putAll o tokens) := by
  have hempty : c.extend {} = c := by
    rw [extend, Array.map_empty, Array.append_empty, Array.append_empty]
  rw [← extend_putAll, hempty]

theorem params_putAll_of_plain (hmode : o.paramsMode = false) (c : Context) (tokens : List Token) :
    (c.putAll o tokens).params = c.params := by
  induction tokens generalizing c with
  | nil => rfl
  | cons token tokens ih =>
      rw [putAll_cons, ih]
      cases token with
      | literal l =>
          rw [put, literal, hmode]
          rfl
      | _ => rfl

end Context

namespace Carries

variable {α : Type} {part whole : α → Script}

/-- The tokens around a part do not depend on it. -/
theorem tokens (h : Carries part whole) :
    ∃ pre post, ∀ n, Script.tokens (whole n) = pre ++ (Script.tokens (part n) ++ post) := by
  have hguard (s : Script) : Script.tokens [.guarded s] = Script.tokens s := by
    rw [Script.tokens, Step.tokens, Script.tokens, List.append_nil]
  exact h.collect Script.tokens_append hguard

/-- Where the whole runs to its end, the part in it does. -/
theorem run_part (h : Carries part whole) {o : Options} {call : Caller} {n : α} {c c' : Context}
    (hrun : Script.run o call c (whole n) = .done c') :
    ∃ c₁ c₂, Script.run o call c₁ (part n) = .done c₂ := by
  induction h generalizing c c' with
  | here => exact ⟨c, c', hrun⟩
  | beside pre post _ ih =>
      rw [Script.run_append, Outcome.andThen_eq_done] at hrun
      obtain ⟨c₁, -, hrest⟩ := hrun
      rw [Script.run_append, Outcome.andThen_eq_done] at hrest
      obtain ⟨c₂, hwhole, -⟩ := hrest
      exact ih hwhole
  | @within whole _ ih =>
      rw [Script.run_singleton, Step.run] at hrun
      split at hrun
      · cases hrun
      · obtain ⟨c₁, hwhole, -⟩ := Outcome.leave_eq_done.1 hrun
        exact ih hwhole

end Carries

/-- Where a word is found at one place in a text only, what stands before it and behind it is known. -/
theorem Text.eq_around {pre word post s : String} {n : Nat} (h : s = pre ++ word ++ post)
    (hn : ∀ k ≤ s.toList.length, word.toList <+: s.toList.drop k → k = n) :
    pre.toList = s.toList.take n ∧ post.toList = s.toList.drop (n + word.toList.length) := by
  have hchars : s.toList = pre.toList ++ (word.toList ++ post.toList) := by
    rw [h, String.toList_append, String.toList_append, List.append_assoc]
  have hlength : pre.toList.length = n := by
    refine hn pre.toList.length ?_ ?_
    · rw [hchars, List.length_append]
      exact Nat.le_add_right _ _
    · rw [hchars, List.drop_left]
      exact List.prefix_append _ _
  constructor
  · rw [hchars, ← hlength, List.take_left]
  · rw [hchars, ← hlength, ← List.drop_drop, List.drop_left, List.drop_left]

namespace Place

variable {a b : Category}

/-- A node that renders at a place renders alone, and its context stands between two contexts that
belong to the place. -/
theorem run_plug {r : Renderer} (hr : r.handlers = {}) (place : Place a b) :
    ∃ pre post : List Token, ∀ (n : Node a) (c : Context),
      r.run {} (place.plug n).script = .done c →
        ∃ part, r.run {} n.script = .done part ∧
          c = ((({} : Context).putAll r.options pre).extend part).extend
            (({} : Context).putAll r.options post) := by
  have hcall := Registry.refuses_of_empty hr r.options r.callLimit
  obtain ⟨pre, post, htokens⟩ := place.carries.tokens
  refine ⟨pre, post, ?_⟩
  intro n c hrun
  obtain ⟨c₁, c₂, hpart⟩ := place.carries.run_part hrun
  have hdefects := ((n.layout.run_eq_done hcall).1 hpart).1
  have hwhole := (((place.plug n).layout.run_eq_done hcall).1 hrun).2
  refine ⟨({} : Context).putAll r.options (Script.tokens n.script), ?_, ?_⟩
  · exact (n.layout.run_eq_done hcall).2 ⟨Site.defects_zero_eq_nil hdefects, rfl⟩
  · rw [hwhole, htokens, Context.putAll_append, Context.putAll_append,
      Context.putAll_eq_extend _ post, Context.putAll_eq_extend _ (Script.tokens n.script)]

/-- Without handlers the rendering of a tree is composed of the rendering of the node at a place and of
what stands around the place. All nodes that render there render alone; the values of each stand
between the same values, and its pieces between the same pieces, where its placeholders count on from
the values before it and the later placeholders from its own. Where no value is bound, its text
stands between the same texts as it is. -/
theorem result_plug (r : Renderer) (hr : r.handlers = {}) (place : Place a b) :
    ∃ (pre post : List Piece) (before after : List Parameter), ∀ (n : Node a) (whole : Rendered),
      (place.plug n).result r = .ok whole →
        ∃ part, r.run {} n.script = .done part ∧ n.result r = .ok (Renderer.finish part) ∧
          whole.params = before ++ part.params.toList ++ after ∧
          whole.sql = Piece.join (pre ++ part.pieces.toList.map (Piece.shift before.length)
            ++ post.map (Piece.shift part.params.size)) ∧
          (r.options.paramsMode = false →
            whole.sql = Piece.join pre ++ (Renderer.finish part).sql ++ Piece.join post) := by
  obtain ⟨pre, post, hplug⟩ := place.run_plug hr
  let first : Context := ({} : Context).putAll r.options pre
  let last : Context := ({} : Context).putAll r.options post
  refine ⟨first.pieces.toList, last.pieces.toList.map (Piece.shift first.params.size),
    first.params.toList, last.params.toList, ?_⟩
  intro n whole hwhole
  rw [Node.result_eq, Renderer.render_eq_ok] at hwhole
  obtain ⟨c, hrun, rfl⟩ := hwhole
  obtain ⟨part, hpart, hc⟩ := hplug n c hrun
  have hsql : (Renderer.finish c).sql = Piece.join (first.pieces.toList
      ++ part.pieces.toList.map (Piece.shift first.params.toList.length)
      ++ (last.pieces.toList.map (Piece.shift first.params.size)).map
        (Piece.shift part.params.size)) := by
    rw [Renderer.finish, Context.sql_eq_join, hc, Context.pieces_extend, Context.pieces_extend,
      Context.params_extend, Array.size_append, Piece.shift_shift, Array.length_toList]
  refine ⟨part, hpart, ?_, ?_, hsql, ?_⟩
  · rw [Node.result_eq, Renderer.render_eq_ok]
    exact ⟨part, hpart, rfl⟩
  · rw [Renderer.finish, hc, Context.params_extend, Context.params_extend, Array.toList_append,
      Array.toList_append]
  · intro hmode
    have hcall := Registry.refuses_of_empty hr r.options r.callLimit
    have hfirst : first.params = #[] := Context.params_putAll_of_plain hmode {} pre
    have hnone : part.params = #[] := by
      rw [((n.layout.run_eq_done hcall).1 hpart).2]
      exact Context.params_putAll_of_plain hmode {} _
    have hpieces : Piece.join part.pieces.toList = (Renderer.finish part).sql :=
      part.sql_eq_join.symm
    rw [hsql, hfirst, hnone, Array.toList_empty, List.length_nil, Array.size_empty,
      Piece.shift_zero, Piece.shift_zero, Piece.shift_zero, Piece.join_append, Piece.join_append,
      hpieces]

/-- An operand between two values, once with a value of its own and once without. The same pieces and
the same values stand around both, and the placeholder behind the operand counts on from its values.
Where no value is bound, the same texts stand around both. -/
theorem result_plug_operand :
    let place : Place .expr .expr := .inside (.binaryLeft .add (.literal (.integer 3)))
      (.inside (.binaryRight (.literal (.integer 1)) .add) .here)
    let null : Node .expr := Expr.literal .null
    let column : Node .expr := Expr.ident "a"
    (Renderer.binding.handlers = {} ∧
      null.result .binding = .ok ⟨"$1", [.null]⟩ ∧
      (place.plug null).result .binding =
        .ok ⟨"$1 + $2 + $3", [.integer 1, .null, .integer 3]⟩ ∧
      column.result .binding = .ok ⟨"\"a\"", []⟩ ∧
      (place.plug column).result .binding =
        .ok ⟨"$1 + \"a\" + $2", [.integer 1, .integer 3]⟩ ∧
      ∃ (pre post : List Piece) (before after : List Parameter),
        before = [.integer 1] ∧ after = [.integer 3] ∧
        Piece.join pre = "$1 + " ∧ Piece.join post = " + $2" ∧
        "$1 + $2 + $3" = Piece.join (pre ++ [.placeholder 2] ++ post.map (Piece.shift 1)) ∧
        "$1 + \"a\" + $2" = Piece.join (pre ++ [.raw "\"a\""] ++ post)) ∧
      ({} : Renderer).options.paramsMode = false ∧
      (place.plug null).result {} = .ok ⟨"1 + NULL + 3", []⟩ ∧
      (place.plug column).result {} = .ok ⟨"1 + \"a\" + 3", []⟩ ∧
      ∃ pre post : List Piece, Piece.join pre = "1 + " ∧ Piece.join post = " + 3" ∧
        "1 + NULL + 3" = Piece.join pre ++ "NULL" ++ Piece.join post ∧
        "1 + \"a\" + 3" = Piece.join pre ++ "\"a\"" ++ Piece.join post := by
  intro place null column
  constructor
  · have hnull : (place.plug null).result .binding =
        .ok ⟨"$1 + $2 + $3", [.integer 1, .null, .integer 3]⟩ := rfl
    have hcolumn : (place.plug column).result .binding =
        .ok ⟨"$1 + \"a\" + $2", [.integer 1, .integer 3]⟩ := rfl
    have hrunNull : Renderer.binding.run {} null.script =
        .done ⟨#[.placeholder 1], #[.null], 0⟩ := rfl
    have hrunColumn : Renderer.binding.run {} column.script = .done ⟨#[.raw "\"a\""], #[], 0⟩ := rfl
    obtain ⟨pre, post, before, after, hplug⟩ := result_plug .binding rfl place
    obtain ⟨part, hrun, -, hparams, hsqlNull, -⟩ := hplug null _ hnull
    rw [hrunNull] at hrun
    cases hrun
    obtain ⟨_, rfl, rfl, rfl⟩ : ∃ rest, before = .integer 1 :: rest ∧ rest = [] ∧
        after = [.integer 3] := by
      simpa [List.cons_eq_append_iff] using hparams
    obtain ⟨part, hrun, -, -, hsqlColumn, -⟩ := hplug column _ hcolumn
    rw [hrunColumn] at hrun
    cases hrun
    have hjoin : "$1 + \"a\" + $2" = Piece.join (pre ++ [.raw "\"a\""] ++ post) := by
      rw [← Piece.shift_zero post]
      exact hsqlColumn
    -- The operand's text is found once in the whole one, which tells what stands around it.
    have hsplit : "$1 + \"a\" + $2" = Piece.join pre ++ "\"a\"" ++ Piece.join post := by
      rw [hjoin, Piece.join_append, Piece.join_append]
      rfl
    obtain ⟨hpre, hpost⟩ := Text.eq_around (n := 5) hsplit (by decide)
    exact ⟨rfl, rfl, hnull, rfl, hcolumn, pre, post, _, _, rfl, rfl, String.toList_inj.1 hpre,
      String.toList_inj.1 hpost, hsqlNull, hjoin⟩
  · obtain ⟨pre, post, before, after, hplug⟩ := result_plug {} rfl place
    obtain ⟨part, hrun, -, -, -, hsqlNull⟩ := hplug null ⟨"1 + NULL + 3", []⟩ rfl
    cases hrun
    obtain ⟨part, hrun, -, -, -, hsqlColumn⟩ := hplug column ⟨"1 + \"a\" + 3", []⟩ rfl
    cases hrun
    have hsplit : "1 + \"a\" + 3" = Piece.join pre ++ "\"a\"" ++ Piece.join post := hsqlColumn rfl
    obtain ⟨hpre, hpost⟩ := Text.eq_around (n := 4) hsplit (by decide)
    exact ⟨rfl, rfl, rfl, pre, post, String.toList_inj.1 hpre, String.toList_inj.1 hpost,
      hsqlNull rfl, hsplit⟩

end Place

end TypedSql
