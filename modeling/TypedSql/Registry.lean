import TypedSql.Script
import TypedSql.Script.Query
import TypedSql.Text.Escaped

/-! Handlers of dialects. A handler turns a node into a script; a registry holds one handler for a
kind of nodes. -/

namespace TypedSql

abbrev Handler := Extension → Script

namespace Extension

/-- The failure of a handler that does not know the payload of its node. -/
def unknownPayload (n : Extension) : Script :=
  [.fail (.malformedTree "Payload" s!"{n.kind} payload")]

/-- Writes the payload of a node that carries a text. -/
def textScript (n : Extension) : Script :=
  match n.payload with
  | .text s => [.text s]
  | _ => n.unknownPayload

/-- Writes the payload of a node that carries an expression. -/
def exprScript (n : Extension) : Script :=
  match n.payload with
  | .expr e => e.script
  | _ => n.unknownPayload

/-- Writes the payload of a node that carries a query. -/
def queryScript (n : Extension) : Script :=
  match n.payload with
  | .query q => q.script
  | _ => n.unknownPayload

/-- How diagnostics show a node: its kind, and that there is more. -/
def shown (n : Extension) : String :=
  "DialectNode \x7b kind: " ++ Text.escaped n.kind ++ ", .. \x7d"

end Extension

/-- The registered handlers, one for each kind. -/
structure Registry where
  entries : List (String × Handler) := []
  nodup : (entries.map (·.1)).Nodup := by exact List.nodup_nil

namespace Registry

/-- Registers a handler in place of an earlier one of the same kind. -/
def register (r : Registry) (kind : String) (handler : Handler) : Registry :=
  ⟨(kind, handler) :: r.entries.filter fun entry => entry.1 ≠ kind, by
    refine List.nodup_cons.2 ⟨by simp, ?_⟩
    exact r.nodup.sublist (List.filter_sublist.map _)⟩

/-- Registers handlers in their order. -/
def ofList (entries : List (String × Handler)) : Registry :=
  entries.foldl (fun r entry => r.register entry.1 entry.2) {}

/-- The handler of a kind. -/
def find? (r : Registry) (kind : String) : Option Handler :=
  r.entries.lookup kind

/-- Entries of one kind do not matter when another kind is looked up. -/
theorem lookup_filter_ne {β : Type} (kind k : String) (entries : List (String × β)) (h : k ≠ kind) :
    (entries.filter fun entry => entry.1 ≠ kind).lookup k = entries.lookup k := by
  induction entries with
  | nil => rfl
  | cons entry entries ih =>
    obtain ⟨key, value⟩ := entry
    by_cases hk : key = kind
    · have hb : (k == key) = false := by simpa [hk] using h
      rw [List.filter_cons_of_neg (by simpa using hk), ih, List.lookup_cons, hb]
    · by_cases hkey : k = key <;> simp_all [List.lookup_cons]

/-- After a registration the new handler is found for its kind, and for any other kind what was
found before. -/
theorem find?_register (r : Registry) (kind k : String) (handler : Handler) :
    (r.register kind handler).find? k = if k = kind then some handler else r.find? k := by
  by_cases h : k = kind
  · simp [find?, register, h]
  · have hb : (k == kind) = false := by simpa using h
    simp only [find?, register, List.lookup_cons, hb, h, if_false]
    exact lookup_filter_ne kind k r.entries h

/-- Further registrations come before those of the registry, the last one first. -/
theorem find?_foldl (entries : List (String × Handler)) (r : Registry) (kind : String) :
    (entries.foldl (fun r entry => r.register entry.1 entry.2) r).find? kind =
      (entries.reverse.lookup kind).or (r.find? kind) := by
  induction entries generalizing r with
  | nil => rfl
  | cons entry entries ih =>
    rw [List.foldl_cons, ih, List.reverse_cons, List.lookup_append, Option.or_assoc, find?_register]
    by_cases h : kind = entry.1
    · rw [if_pos h, h, List.lookup_cons_self, Option.some_or]
    · have hb : (kind == entry.1) = false := by simpa using h
      rw [if_neg h, List.lookup_cons, hb]
      rfl

/-- The last registration for a kind is the one that counts. -/
theorem find?_ofList (entries : List (String × Handler)) (kind : String) :
    (ofList entries).find? kind = entries.reverse.lookup kind := by
  rw [ofList, find?_foldl]
  exact Option.or_none

/-- The registered kinds in the order of their characters. -/
def kinds (r : Registry) : List String :=
  (r.entries.map (·.1)).mergeSort fun a b => a ≤ b

/-- How diagnostics show a registry: by its kinds. -/
def shown (r : Registry) : String :=
  "ExtensionRegistry \x7b kinds: [" ++ ", ".intercalate (r.kinds.map Text.escaped) ++ "] \x7d"

end Registry

end TypedSql
