import TypedSql.Proofs.Growth
import TypedSql.Proofs.Slot
import TypedSql.Proofs.Socket
import TypedSql.Proofs.Template
import TypedSql.Proofs.Woven

/-! Dialect nodes in a tree. Where their handlers only write, each handler runs once for each node of
its kind, in the order of the text. Its text fills the gap of the node: a custom variant is written
where any other variant would be, and a filled slot, after a space, right after the part that has
it. -/

namespace TypedSql

namespace Site

/-- A dialect node with the family of its place. -/
def node? : Site → Option (String × Extension)
  | node family n => some (family, n)
  | _ => none

/-- The site can be written: it is no malformed name or type, and a guarded node is within the
limit. -/
def Fits (limit : Nat) : Site → Prop
  | guarded depth => depth ≤ limit
  | short _ => False
  | unscaled _ => False
  | _ => True

instance (limit : Nat) : DecidablePred (Fits limit)
  | guarded depth => inferInstanceAs (Decidable (depth ≤ limit))
  | short _ => inferInstanceAs (Decidable False)
  | unscaled _ => inferInstanceAs (Decidable False)
  | ident _ => inferInstanceAs (Decidable True)
  | literal _ => inferInstanceAs (Decidable True)
  | operator _ => inferInstanceAs (Decidable True)
  | node _ _ => inferInstanceAs (Decidable True)

theorem nodes_nest (inside : List Site) :
    (nest inside).filterMap node? = inside.filterMap node? :=
  filterMap_nest (fun _ => rfl) inside

end Site

namespace Layout

variable {sites : List Site} {s : Script}

/-- The template has the dialect nodes of the sites, in the same order. -/
theorem nodes (h : Layout sites s) : Script.nodes s = sites.filterMap Site.node? := by
  induction h with
  | nil => rfl
  | guarded _ _ _ ihbody ih =>
      rw [Script.nodes_cons, ih, Step.items, List.filterMap_append, Site.nodes_nest, ← ihbody,
        Script.nodes]
  | text _ _ ih | operator _ ih | ident _ _ ih | literal _ _ ih | short _ ih | unscaled _ ih
  | node _ ih =>
      rw [Script.nodes_cons, ih]
      rfl

/-- A script fits below some guards where its sites do. -/
theorem fits (h : Layout sites s) {limit depth : Nat}
    (hsites : ∀ site ∈ sites, (site.sink depth).Fits limit) : Script.Fits limit depth s := by
  induction h generalizing depth with
  | nil => exact trivial
  | guarded _ _ _ ihbody ih =>
      rw [List.forall_mem_append, Site.nest, List.forall_mem_cons, List.forall_mem_map] at hsites
      obtain ⟨⟨hguard, hinside⟩, hrest⟩ := hsites
      have hdepth : depth < limit := by
        rw [Site.sink, Site.Fits] at hguard
        omega
      refine ⟨⟨hdepth, ihbody ?_⟩, ih hrest⟩
      intro site hsite
      rw [← Site.sink_sink]
      exact hinside site hsite
  | text _ _ ih => exact ⟨trivial, ih hsites⟩
  | operator _ ih | ident _ _ ih | literal _ _ ih | node _ ih =>
      rw [List.forall_mem_cons] at hsites
      exact ⟨trivial, ih hsites.2⟩
  | short _ ih | unscaled _ ih =>
      rw [List.forall_mem_cons] at hsites
      exact hsites.1.elim

end Layout

/-! ### Handlers that only write -/

namespace Token

/-- Wherever the tokens are put, they are written as one text and bind nothing. -/
structure Spell (o : Options) (tokens : List Token) (w : String) : Prop where
  join : ∀ count, Piece.join (pieces o count tokens) = w
  values : tokens.filterMap (value? o) = []

/-- After a space. -/
theorem Spell.join_spaced {o : Options} {tokens : List Token} {w : String} (h : Spell o tokens w)
    (count : Nat) (after : List Token) :
    Piece.join (pieces o count (.text " " :: (tokens ++ after))) =
      " " ++ (w ++ Piece.join (pieces o count after)) := by
  rw [pieces, Piece.join_cons, pieces_append, Piece.join_append, h.join, h.values]
  rfl

theorem pieces_shift (o : Options) (count k : Nat) (tokens : List Token) :
    pieces o (count + k) tokens = (pieces o count tokens).map (Piece.shift k) := by
  induction tokens generalizing count with
  | nil => rfl
  | cons token tokens ih =>
      have hpiece : token.piece o (count + k) = (token.piece o count).shift k := by
        cases token with
        | literal l =>
            rw [piece, piece]
            cases o.paramsMode with
            | false => rfl
            | true => exact congrArg Piece.placeholder (Nat.add_right_comm count k 1)
        | _ => rfl
      rw [pieces, pieces, List.map_cons, hpiece, Nat.add_right_comm, ih]

end Token

namespace Script

/-- The script does nothing but write a text. -/
inductive Writes : Script → String → Prop
  | nil : Writes [] ""
  | text (s : String) {steps : Script} {w : String} (h : Writes steps w) :
      Writes (.text s :: steps) (s ++ w)
  | ident (i : Ident) {steps : Script} {w : String} (h : Writes steps w) :
      Writes (.ident i :: steps) (Text.quoted '"' i ++ w)

namespace Writes

variable {s : Script} {w : String}

theorem fits (h : Writes s w) (limit depth : Nat) : Fits limit depth s := by
  induction h with
  | nil => exact trivial
  | text s _ ih => exact ⟨trivial, ih⟩
  | ident i _ ih => exact ⟨trivial, ih⟩

theorem nodes_eq_nil (h : Writes s w) : nodes s = [] := by
  induction h with
  | nil => rfl
  | text s _ ih => exact ih
  | ident i _ ih => exact ih

theorem spell (h : Writes s w) (o : Options) (fill : Extension → List Token) :
    Token.Spell o (filled fill s) w := by
  induction h with
  | nil => exact ⟨fun _ => rfl, rfl⟩
  | text s _ ih =>
      refine ⟨fun count => ?_, ih.values⟩
      exact (Piece.join_cons _ _).trans (congrArg (s ++ ·) (ih.join count))
  | ident i _ ih =>
      refine ⟨fun count => ?_, ih.values⟩
      exact (Piece.join_cons _ _).trans (congrArg (Text.quoted '"' i ++ ·) (ih.join count))

end Writes

end Script

namespace Registry

/-- The handlers of the nodes only write, each for a node the text that belongs to it. -/
def Writes (r : Registry) (text : Extension → String) (nodes : List (String × Extension)) : Prop :=
  ∀ p ∈ nodes, ∃ handler, r.find? p.2.kind = some handler ∧ (handler p.2).Writes (text p.2)

/-- The tokens of the handler of a node. -/
def fill (r : Registry) (n : Extension) : List Token :=
  match r.find? n.kind with
  | none => []
  | some handler => Script.filled (fun _ => []) (handler n)

variable {r : Registry} {text : Extension → String} {nodes : List (String × Extension)}

theorem fill_found {n : Extension} {handler : Handler} (h : r.find? n.kind = some handler) :
    r.fill n = Script.filled (fun _ => []) (handler n) := by
  rw [fill, h]

theorem Writes.mono (h : r.Writes text nodes) {nodes' : List (String × Extension)}
    (hsubset : nodes' ⊆ nodes) : r.Writes text nodes' :=
  fun p hp => h p (hsubset hp)

theorem Writes.spell (h : r.Writes text nodes) (o : Options) {p : String × Extension}
    (hp : p ∈ nodes) : Token.Spell o (r.fill p.2) (text p.2) := by
  obtain ⟨handler, hfind, hwrites⟩ := h p hp
  rw [fill_found hfind]
  exact hwrites.spell o _

theorem Writes.fills (h : r.Writes text nodes) (o : Options) (calls : Nat) :
    (r.call o (calls + 1)).Fills o r.fill nodes := by
  intro p hp c
  obtain ⟨handler, hfind, hwrites⟩ := h p hp
  have hcall : (r.call o calls).Fills o (fun _ => []) (Script.nodes (handler p.2)) := by
    rw [hwrites.nodes_eq_nil]
    exact nofun
  rw [call_found o p.1 c calls hfind, fill_found hfind]
  exact Script.run_filled (hwrites.fits _ _) hcall

/-- A handler that only writes calls no further handler. -/
theorem Writes.counts (h : r.Writes text nodes) (o : Options) (calls : Nat) :
    (r.acts o (calls + 1)).Counts nodes := by
  intro p hp c
  obtain ⟨handler, hfind, hwrites⟩ := h p hp
  have hcall : (r.call o calls).Fills o (fun _ => []) (Script.nodes (handler p.2)) := by
    rw [hwrites.nodes_eq_nil]
    exact nofun
  have hinside : (r.acts o calls).Counts (Script.nodes (handler p.2)) := by
    rw [hwrites.nodes_eq_nil]
    exact nofun
  rw [acts_found o p.1 c calls hfind, List.filterMap_cons_some (by rfl),
    Script.acts_filled (hwrites.fits _ _) hcall hinside, hwrites.nodes_eq_nil]

end Registry

namespace Renderer

variable {r : Renderer} {text : Extension → String} {s : Script}

/-- A script that fits runs to its end if the handlers of its nodes only write. -/
theorem run_filled (hfits : Script.Fits r.options.maxDepth 0 s) (hcalls : 0 < r.callLimit)
    (hwrites : r.handlers.Writes text (Script.nodes s)) :
    r.run {} s = .done (({} : Context).putAll r.options (Script.filled r.handlers.fill s)) := by
  obtain ⟨calls, hlimit⟩ := Nat.exists_eq_add_one.2 hcalls
  rw [run, hlimit]
  exact Script.run_filled hfits (hwrites.fills r.options calls)

theorem acts_filled (hfits : Script.Fits r.options.maxDepth 0 s) (hcalls : 0 < r.callLimit)
    (hwrites : r.handlers.Writes text (Script.nodes s)) :
    (r.acts {} s).filterMap Act.node? = Script.nodes s := by
  obtain ⟨calls, hlimit⟩ := Nat.exists_eq_add_one.2 hcalls
  rw [acts, hlimit]
  exact Script.acts_filled hfits (hwrites.fills r.options calls) (hwrites.counts r.options calls)

end Renderer

/-! ### The text -/

namespace Item

/-- The texts of a template, where `count` values are bound before it. The nodes are gaps. -/
def parts (o : Options) : (count : Nat) → List Item → List (Option String)
  | _, [] => []
  | count, token t :: items =>
    some (t.piece o count).text :: parts o (count + (t.value? o).toList.length) items
  | count, node _ _ :: items => none :: parts o count items

variable {o : Options}

/-- The text of a filled template is the text of the template with its gaps filled. -/
theorem join_filled {fill : Extension → List Token} {text : Extension → String} {items : List Item}
    (h : ∀ p ∈ items.filterMap node?, Token.Spell o (fill p.2) (text p.2)) (count : Nat) :
    Piece.join (Token.pieces o count (items.flatMap (filled fill))) =
      Text.fill ((items.filterMap node?).map fun p => text p.2) (parts o count items) := by
  induction items generalizing count with
  | nil => rfl
  | cons item items ih =>
      cases item with
      | token t =>
          have hcons : (token t :: items).flatMap (filled fill) = t :: items.flatMap (filled fill) :=
            rfl
          rw [hcons, Token.pieces, Piece.join_cons, ih h, parts, Text.fill_some]
          rfl
      | node family n =>
          have hnodes : (node family n :: items).filterMap node? =
              (family, n) :: items.filterMap node? := rfl
          rw [hnodes, List.forall_mem_cons] at h
          rw [List.flatMap_cons, filled, Token.pieces_append, Piece.join_append, h.1.join,
            h.1.values, List.length_nil, Nat.add_zero, ih h.2, hnodes, List.map_cons, parts,
            Text.fill_none]

theorem length_gaps_parts (count : Nat) (items : List Item) :
    (Text.gaps (parts o count items)).2.length = (items.filterMap node?).length := by
  induction items generalizing count with
  | nil => rfl
  | cons item items ih =>
      cases item with
      | token t => exact ih _
      | node family n => exact congrArg (· + 1) (ih count)

end Item

namespace Slot

variable {a b : Category} (slot : Slot a)

/-- The template of a tree with an extension in a slot is that with nothing there, but for a space and
a gap right after the part that has the slot. -/
theorem items_plug (place : Place a b) : ∃ before after,
    Script.items (place.plug (slot.fill none)).script =
      before ++ (Script.items (slot.script none) ++ after) ∧
    ∀ n, Script.items (place.plug (slot.fill (some n))).script = before
      ++ (Script.items (slot.script none) ++ (.token (.text " ") :: .node slot.family n :: after)) := by
  obtain ⟨before, after, hitems⟩ := (slot.carries.comp place.carries).items
  refine ⟨before, after, hitems none, ?_⟩
  intro n
  rw [hitems, slot.script_eq, Script.items_append, List.append_assoc]
  rfl

/-- A part fits with an empty slot wherever it fits with a filled one. -/
theorem fits_empty {limit depth : Nat} {ext : Option Extension}
    (h : Script.Fits limit depth (slot.script ext)) : Script.Fits limit depth (slot.script none) := by
  rw [slot.script_eq, Script.fits_append] at h
  exact h.1

end Slot

/-- The text of what a context has got, where its pieces stand after others. -/
def Context.sqlAfter (before : List Piece) (c : Context) : String :=
  Piece.join (c.pieces.toList.map (Piece.shift (before.filterMap Piece.index?).length))

/-- What is put between tokens is what is put into a fresh context, with its placeholders counted
on. -/
theorem Context.sql_putAll_around {o : Options} (before own after : List Token) :
    (({} : Context).putAll o (before ++ (own ++ after))).sql =
      Piece.join (Token.pieces o 0 before)
        ++ (({} : Context).putAll o own).sqlAfter (Token.pieces o 0 before)
        ++ Piece.join (Token.pieces o (0 + (before.filterMap (Token.value? o)).length
          + (own.filterMap (Token.value? o)).length) after) := by
  have hcount : ((Token.pieces o 0 before).filterMap Piece.index?).length =
      (before.filterMap (Token.value? o)).length := by
    rw [Token.index_pieces, List.length_range']
  have hown : (({} : Context).putAll o own).pieces.toList = Token.pieces o 0 own :=
    pieces_putAll o {} own
  rw [sql_putAll_fresh, Token.pieces_append, Token.pieces_append, Piece.join_append,
    Piece.join_append, sqlAfter, hcount, hown, ← Token.pieces_shift, String.append_assoc]

namespace Node

/-- The dialect nodes of a tree in the order of its text, each with the family of its place. -/
def payloads {a : Category} (n : Node a) : List (String × Extension) :=
  n.sites.filterMap Site.node?

variable {a : Category}

theorem nodes_script (n : Node a) : Script.nodes n.script = n.payloads :=
  n.layout.nodes

theorem fits_script {n : Node a} {limit : Nat} (h : ∀ site ∈ n.sites, site.Fits limit) :
    Script.Fits limit 0 n.script :=
  n.layout.fits fun site hsite => by
    rw [Site.sink_zero]
    exact h site hsite

theorem result_filled {r : Renderer} {text : Extension → String} {n : Node a}
    (hfits : Script.Fits r.options.maxDepth 0 n.script) (hcalls : 0 < r.callLimit)
    (hwrites : r.handlers.Writes text (Script.nodes n.script)) : n.result r = .ok
      (Renderer.finish (({} : Context).putAll r.options (Script.filled r.handlers.fill n.script))) := by
  rw [result_eq, Renderer.render_eq_ok]
  exact ⟨_, Renderer.run_filled hfits hcalls hwrites, rfl⟩

end Node

namespace Slot

variable {a b : Category}

/-- The filled slot is in a text nothing but a space and `w`, right after the part that has the slot:
the rest is what renders with an empty slot. The own text of the part is what it renders to alone,
with its placeholders counted on. -/
def Adds (r : Renderer) (place : Place a b) (slot : Slot a) (w sql : String) : Prop :=
  ∃ (before after : List Piece) (part : Context) (empty : Rendered),
    r.run {} (slot.script none) = .done part ∧
    (place.plug (slot.fill none)).result r = .ok empty ∧
    empty.sql = Piece.join before ++ part.sqlAfter before ++ Piece.join after ∧
    sql = Piece.join before ++ part.sqlAfter before ++ " " ++ w ++ Piece.join after

variable {r : Renderer} {text : Extension → String}

theorem adds_of_fits (hcalls : 0 < r.callLimit) (place : Place a b) (slot : Slot a) (n : Extension)
    (hfits : Script.Fits r.options.maxDepth 0 (place.plug (slot.fill (some n))).script)
    (hwrites : r.handlers.Writes text (Script.nodes (place.plug (slot.fill (some n))).script)) :
    slot.Adds r place (text n) (({} : Context).putAll r.options
      (Script.filled r.handlers.fill (place.plug (slot.fill (some n))).script)).sql := by
  have hcarries := slot.carries.comp place.carries
  obtain ⟨before, after, hempty, hfilled⟩ := slot.items_plug place
  have hown : (Script.items (slot.script none)).Sublist
      (Script.items (place.plug (slot.fill (some n))).script) := by
    rw [hfilled]
    exact (List.sublist_append_left _ _).trans (List.sublist_append_right before _)
  have hrest : (Script.items (place.plug (slot.fill none)).script).Sublist
      (Script.items (place.plug (slot.fill (some n))).script) := by
    rw [hempty, hfilled]
    exact ((List.sublist_append_right [_, _] after).append_left _).append_left before
  have hnode : (slot.family, n) ∈ Script.nodes (place.plug (slot.fill (some n))).script := by
    rw [Script.nodes, hfilled]
    simp [Item.node?]
  obtain ⟨depth, -, hpart⟩ := hcarries.fits_part hfits
  have hrunown := Renderer.run_filled ((slot.fits_empty hpart).mono (Nat.zero_le depth)) hcalls
    (hwrites.mono (hown.filterMap _).subset)
  have hresult := Node.result_filled (hcarries.fits_of_part (fun _ _ => slot.fits_empty) hfits) hcalls
    (hwrites.mono (hrest.filterMap _).subset)
  have hsql := Context.sql_putAll_around (o := r.options)
    (before.flatMap (Item.filled r.handlers.fill)) (Script.filled r.handlers.fill (slot.script none))
  have hsqlempty := hsql (after.flatMap (Item.filled r.handlers.fill))
  rw [Script.filled, ← List.flatMap_append, ← List.flatMap_append, ← hempty] at hsqlempty
  refine ⟨_, _, _, _, hrunown, hresult, hsqlempty, ?_⟩
  rw [Script.filled, hfilled, List.flatMap_append, List.flatMap_append, List.flatMap_cons,
    List.flatMap_cons, Item.filled, Item.filled, List.singleton_append]
  refine (hsql _).trans ?_
  rw [(hwrites.spell r.options hnode).join_spaced]
  simp only [String.append_assoc]
  rfl

end Slot

namespace Socket

variable {f : Family} {a b : Category}

/-- The custom variant in the socket is in a text nothing but `w`, right where any other variant that
renders there has its own text. -/
def Holds (r : Renderer) (text : Extension → String) (place : Place a b) (socket : Socket f a)
    (w sql : String) : Prop :=
  ∃ before after : List Piece, sql = Piece.join before ++ w ++ Piece.join after ∧
    ∀ v : Variant f, (∀ site ∈ (place.plug (socket.plug v)).sites, site.Fits r.options.maxDepth) →
      r.handlers.Writes text (place.plug (socket.plug v)).payloads →
        ∃ (part : Context) (other : Rendered), r.run {} v.script = .done part ∧
          (place.plug (socket.plug v)).result r = .ok other ∧
          other.sql = Piece.join before ++ part.sqlAfter before
            ++ Piece.join (after.map (Piece.shift part.params.size))

theorem holds_of_fits {r : Renderer} {text : Extension → String} (hcalls : 0 < r.callLimit)
    (place : Place a b) (socket : Socket f a) (n : Extension)
    (hwrites : r.handlers.Writes text (Script.nodes (place.plug (socket.plug (.custom n f))).script)) :
    socket.Holds r text place (text n) (({} : Context).putAll r.options
      (Script.filled r.handlers.fill (place.plug (socket.plug (.custom n f))).script)).sql := by
  have hcarries := socket.carries.comp place.carries
  obtain ⟨before, after, hitems⟩ := hcarries.items
  have hcustom : Script.items (place.plug (socket.plug (.custom n f))).script =
      before ++ (.node f.label n :: after) := by
    rw [hitems, Variant.script_custom]
    rfl
  have hnode : (f.label, n) ∈ Script.nodes (place.plug (socket.plug (.custom n f))).script := by
    rw [Script.nodes, hcustom]
    simp [Item.node?]
  have hspell := hwrites.spell r.options hnode
  let first := before.flatMap (Item.filled r.handlers.fill)
  let last := after.flatMap (Item.filled r.handlers.fill)
  refine ⟨Token.pieces r.options 0 first,
    Token.pieces r.options (0 + (first.filterMap (Token.value? r.options)).length) last, ?_, ?_⟩
  · rw [Context.sql_putAll_fresh, Script.filled, hcustom, List.flatMap_append, List.flatMap_cons,
      Item.filled, Token.pieces_append, Token.pieces_append, hspell.values, Piece.join_append,
      Piece.join_append, hspell.join, String.append_assoc]
    rfl
  · intro v hsites hnodes
    rw [← Node.nodes_script] at hnodes
    have hfits := Node.fits_script hsites
    obtain ⟨depth, -, hpart⟩ := hcarries.fits_part hfits
    have hpartnodes : Script.nodes v.script ⊆ Script.nodes (place.plug (socket.plug v)).script := by
      rw [Script.nodes, Script.nodes, hitems, List.filterMap_append, List.filterMap_append]
      exact fun p hp => List.mem_append_right _ (List.mem_append_left _ hp)
    have hrunpart := Renderer.run_filled (hpart.mono (Nat.zero_le depth)) hcalls
      (hnodes.mono hpartnodes)
    have hsize : (({} : Context).putAll r.options (Script.filled r.handlers.fill v.script)).params.size =
        ((Script.filled r.handlers.fill v.script).filterMap (Token.value? r.options)).length := by
      rw [← Array.length_toList, Context.values_putAll]
      rfl
    refine ⟨_, _, hrunpart, Node.result_filled hfits hcalls hnodes, ?_⟩
    rw [hsize, ← Token.pieces_shift, ← Context.sql_putAll_around, Renderer.finish, Script.filled,
      hitems, List.flatMap_append, List.flatMap_append]
    rfl

end Socket

namespace Node

variable {b : Category}

/-- The texts around the dialect nodes of a tree that can be written do not depend on what handlers
write. Under any handlers that only write, the tree renders; exactly the handlers of its dialect nodes
run, each once and in their order; and their texts fill the gaps. A custom variant is the text of its
handler where any other variant has its own text, and a filled slot is a space and the text of its
handler right after the text of the part that has the slot. -/
theorem result_payloads (whole : Node b) (o : Options)
    (hfits : ∀ site ∈ whole.sites, site.Fits o.maxDepth) :
    ∃ (first : String) (rest : List String), rest.length = whole.payloads.length ∧
      ∀ (r : Renderer) (text : Extension → String), r.options = o → 0 < r.callLimit →
        r.handlers.Writes text whole.payloads →
          ∃ result, whole.result r = .ok result ∧
            (r.acts {} whole.script).filterMap Act.node? = whole.payloads ∧
            result.sql = Text.woven first (whole.payloads.map fun p => text p.2) rest ∧
            (∀ {f : Family} {a : Category} (place : Place a b) (socket : Socket f a) (n : Extension),
              whole = place.plug (socket.plug (.custom n f)) →
                socket.Holds r text place (text n) result.sql) ∧
            ∀ {a : Category} (place : Place a b) (slot : Slot a) (n : Extension),
              whole = place.plug (slot.fill (some n)) →
                slot.Adds r place (text n) result.sql := by
  have hscript : Script.Fits o.maxDepth 0 whole.script := fits_script hfits
  let gaps := Text.gaps (Item.parts o 0 (Script.items whole.script))
  refine ⟨gaps.1, gaps.2, ?_, ?_⟩
  · rw [← nodes_script]
    exact Item.length_gaps_parts 0 _
  · rintro r text rfl hcalls hwrites
    rw [← nodes_script] at hwrites
    refine ⟨_, result_filled hscript hcalls hwrites, ?_, ?_, ?_, ?_⟩
    · rw [← nodes_script]
      exact Renderer.acts_filled hscript hcalls hwrites
    · rw [Renderer.finish, Context.sql_putAll_fresh, Script.filled,
        Item.join_filled fun p hp => hwrites.spell r.options hp, ← nodes_script]
      rfl
    · rintro f a place socket n rfl
      exact socket.holds_of_fits hcalls place n hwrites
    · rintro a place slot n rfl
      exact slot.adds_of_fits hcalls place n hscript hwrites

/-- A custom expression, and the filled slot of the select that has it. With an identifier in place of
the custom expression the same is written around it. -/
theorem result_payloads_select :
    let hint : Extension := ⟨"hint", 0, .unit⟩
    let tail : Extension := ⟨"tail", 1, .unit⟩
    let handlers : Registry :=
      .ofList [("hint", fun _ => [.text "A"]), ("tail", fun _ => [.ident "b"])]
    let r : Renderer := { handlers := handlers }
    let select (e : Expr) (ext : Option Extension) : Node .select := { items := [⟨e, none⟩], ext := ext }
    let whole := select (.custom hint) (some tail)
    (∀ site ∈ whole.sites, site.Fits r.options.maxDepth) ∧
      ∃ result other empty : Rendered, ∃ start finish front back : String,
        whole.result r = .ok result ∧ (select (.ident "c") (some tail)).result r = .ok other ∧
        (select (.custom hint) none).result r = .ok empty ∧
        (r.acts {} whole.script).filterMap Act.node? = [("Expr", hint), ("Select", tail)] ∧
        result.sql = start ++ "A" ++ finish ∧ other.sql = start ++ "\"c\"" ++ finish ∧
        result.sql = front ++ " " ++ "\"b\"" ++ back ∧ empty.sql = front ++ back := by
  intro hint tail handlers r select whole
  have hfits : ∀ site ∈ whole.sites, site.Fits r.options.maxDepth := by decide
  have hfitsother : ∀ site ∈ (select (.ident "c") (some tail)).sites,
      site.Fits r.options.maxDepth := by decide
  let text (n : Extension) : String := if n.kind = "hint" then "A" else "\"b\""
  have hwritestail : r.handlers.Writes text [("Select", tail)] := by
    rw [Registry.Writes, List.forall_mem_singleton]
    exact ⟨_, rfl, .ident "b" .nil⟩
  have hwrites : r.handlers.Writes text whole.payloads := by
    rw [show whole.payloads = [("Expr", hint), ("Select", tail)] from rfl, Registry.Writes,
      List.forall_mem_cons]
    exact ⟨⟨_, rfl, .text "A" .nil⟩, hwritestail⟩
  obtain ⟨first, rest, -, hall⟩ := result_payloads whole r.options hfits
  obtain ⟨result, hresult, hacts, -, hsockets, hslots⟩ := hall r text rfl (by decide) hwrites
  let place : Place .expr .select :=
    .inside (.selectItem (select .wildcard (some tail)) [] ⟨.wildcard, none⟩ []) .here
  obtain ⟨before, after, hsql, hother⟩ := hsockets place Socket.expr hint rfl
  obtain ⟨part, other, hpart, hresultother, hsqlother⟩ :=
    hother (Expr.ident "c") hfitsother hwritestail
  obtain ⟨before', after', part', empty, -, hempty, hsqlempty, hadds⟩ :=
    hslots .here (Slot.select (select (.custom hint) none)) tail rfl
  have hpartsql : part.sqlAfter before = "\"c\"" := by
    cases hpart
    rfl
  have hafter : after.map (Piece.shift part.params.size) = after := by
    cases hpart
    exact Piece.shift_zero after
  rw [hpartsql, hafter] at hsqlother
  exact ⟨hfits, result, other, empty, _, _, _, _, hresult, hresultother, hempty, hacts, hsql,
    hsqlother, hadds, hsqlempty⟩

end Node

end TypedSql
