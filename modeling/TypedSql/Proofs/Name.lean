import TypedSql.Proofs.Legible.Script

/-! Names: what they write, on any context and for any renderer, and how they are made of texts with
dots. Splitting a text at its dots and joining segments with dots are inverse to each other, and a name
that was split can always be written. -/

namespace TypedSql

open Text

/-- The context `c'` has what `c` has and the characters behind it, with no more values and at the
same depth. -/
structure Context.Adds (c : Context) (cs : List Char) (c' : Context) : Prop where
  sql : c'.sql.toList = c.sql.toList ++ cs
  params : c'.params = c.params
  depth : c'.depth = c.depth

/-- Identifiers with fixed texts around them are written on any context and by any renderer. -/
theorem Layout.run_idents {is : List Ident} {s : Script} (h : Layout (is.map Site.ident) s)
    (o : Options) (call : Caller) (c : Context) :
    ∃ c', Script.run o call c s = .done c' ∧ c.Adds s.spelling c' := by
  have hnode (family : String) (n : Extension) : .node family n ∉ is.map Site.ident := by simp
  have hliteral (l : Literal) : .literal l ∉ is.map Site.ident := by simp
  have hdefects : Site.defects o.maxDepth c.depth (is.map Site.ident) = [] :=
    List.filterMap_eq_nil_iff.2 (List.forall_mem_map.2 fun _ _ => rfl)
  have hvalues : (Script.tokens s).filterMap (Token.value? o) = [] := by
    rw [h.filterMap_tokens fun _ => rfl, List.filterMap_filterMap, List.filterMap_map]
    exact List.filterMap_eq_nil_iff.2 fun _ _ => rfl
  refine ⟨c.putAll o (Script.tokens s), ?_, ?_, ?_, Context.putAll_depth o c _⟩
  · rw [h.run_congr hnode call (({} : Registry).call o 0),
      h.run_eq_done (Registry.refuses_of_empty rfl o 0)]
    exact ⟨hdefects, rfl⟩
  · rw [Context.sql_eq_join, Context.pieces_putAll, Piece.join_append, String.toList_append,
      ← Context.sql_eq_join, ← Token.written,
      h.written_eq_spelling fun l hl => absurd hl (hliteral l)]
  · rw [← Array.toList_inj, Context.values_putAll, hvalues, List.append_nil]

/-- What a run of identifiers with fixed texts around them adds to the text. -/
theorem Layout.sql_of_run_idents {is : List Ident} {s : Script} (h : Layout (is.map Site.ident) s)
    {o : Options} {call : Caller} {c c' : Context} (hrun : Script.run o call c s = .done c') :
    c'.sql.toList = c.sql.toList ++ s.spelling := by
  obtain ⟨d, hd, hadds⟩ := h.run_idents o call c
  rw [hrun] at hd
  cases hd
  exact hadds.sql

namespace Text

/-- Identifiers, each quoted, with a text between them. -/
def separated (separator : String) (is : List Ident) : List Char :=
  separator.toList.intercalate (is.map fun i => (quoted '"' i).toList)

@[simp] theorem separated_singleton (separator : String) (i : Ident) :
    separated separator [i] = (quoted '"' i).toList := by
  rw [separated, List.map_singleton, List.intercalate_singleton]

theorem separated_cons (separator : String) (i : Ident) {is : List Ident} (h : is ≠ []) :
    separated separator (i :: is) =
      (quoted '"' i).toList ++ (separator.toList ++ separated separator is) := by
  rw [separated, List.map_cons, List.intercalate_cons_of_ne_nil (mt List.map_eq_nil_iff.1 h),
    List.append_assoc, separated]

end Text

namespace Script

theorem spelling_chain (segments : List Ident) :
    (chain segments).spelling = separated "." segments := by
  rw [chain, spelling_intercalate, List.map_map, separated]
  exact congrArg _ (List.map_congr_left fun i _ => spelling_singleton_ident i)

theorem spelling_idents_eq (is : List Ident) :
    (idents is).spelling = '(' :: (separated ", " is ++ [')']) := by
  rw [spelling_idents, List.map_congr_left fun i _ => spelling_singleton_ident i]
  rfl

theorem layout_idents (is : List Ident) : Layout (is.map Site.ident) (idents is) :=
  (Layout.idents is).layout

end Script

namespace Name

theorem layout_of_whole {name : Name} (h : name.Whole) :
    Layout (name.segments.map Site.ident) name.script := by
  have hlayout := name.layout
  cases name with
  | simple i => exact hlayout
  | compound segments =>
      rw [sites, Site.compound, if_neg (Nat.not_lt.2 h)] at hlayout
      exact hlayout

/-- Only whole names are written. -/
theorem whole_of_run {name : Name} {o : Options} {call : Caller} {c c' : Context}
    (h : Script.run o call c name.script = .done c') : name.Whole := by
  cases name with
  | simple i => trivial
  | compound segments =>
      by_contra hshort
      rw [script, Script.compound, if_pos (Nat.lt_of_not_le hshort), Script.run_singleton,
        Step.run] at h
      cases h

/-- A whole name is spelled by its segments, each quoted, with dots between them. -/
theorem spelling_of_whole {name : Name} (h : name.Whole) :
    name.script.spelling = separated "." name.segments := by
  rw [script_of_whole h, Script.spelling_chain]

end Name

/-! ### Dots -/

namespace Text

/-- Splitting at a character gives one part more than there are such characters. -/
theorem length_splitOn (c : Char) (cs : List Char) : (cs.splitOn c).length = cs.count c + 1 := by
  induction cs with
  | nil => rfl
  | cons d cs ih =>
      rw [List.splitOn_cons_eq_if_modifyHead]
      by_cases hd : d = c
      · rw [hd, beq_self_eq_true, if_pos rfl, List.length_cons, ih, List.count_cons_self]
      · rw [beq_false_of_ne hd, if_neg Bool.false_ne_true, List.length_modifyHead, ih,
          List.count_cons_of_ne hd]

/-- No part has the character that was split at. -/
theorem not_mem_of_mem_splitOn {c : Char} {cs part : List Char} (h : part ∈ cs.splitOn c) :
    c ∉ part := by
  induction cs generalizing part with
  | nil =>
      rw [List.mem_singleton.1 h]
      exact List.not_mem_nil
  | cons d cs ih =>
      rw [List.splitOn_cons_eq_if_modifyHead] at h
      by_cases hd : d = c
      · rw [hd, beq_self_eq_true, if_pos rfl] at h
        rcases List.mem_cons.1 h with rfl | h
        · exact List.not_mem_nil
        · exact ih h
      · obtain ⟨first, more, hsplit⟩ := List.exists_cons_of_ne_nil (List.splitOn_ne_nil c cs)
        rw [beq_false_of_ne hd, if_neg Bool.false_ne_true, hsplit, List.modifyHead_cons] at h
        rw [hsplit] at ih
        rcases List.mem_cons.1 h with rfl | h
        · rw [List.mem_cons, not_or]
          exact ⟨fun hc => hd hc.symm, ih List.mem_cons_self⟩
        · exact ih (List.mem_cons_of_mem first h)

end Text

namespace Name

theorem segments_ofDotted (s : String) :
    (ofDotted s).segments = (s.toList.splitOn '.').map String.ofList := by
  rw [ofDotted]
  split
  · next i hsplit => exact hsplit.symm
  · rfl

theorem length_segments_ofDotted (s : String) :
    (ofDotted s).segments.length = s.toList.count '.' + 1 := by
  rw [segments_ofDotted, List.length_map, Text.length_splitOn]

/-- A name is split into one segment or into several, and it is simple in the first case. -/
theorem whole_ofDotted (s : String) : (ofDotted s).Whole := by
  have hlength := length_segments_ofDotted s
  rw [segments_ofDotted] at hlength
  rw [ofDotted]
  generalize (s.toList.splitOn '.').map String.ofList = parts at hlength ⊢
  split
  · trivial
  · next hmany =>
      rw [Whole]
      by_contra hshort
      obtain ⟨i, hi⟩ := List.length_eq_one_iff.1 (show parts.length = 1 by omega)
      exact hmany i hi

theorem not_mem_of_mem_ofDotted {s : String} {i : Ident} (h : i ∈ (ofDotted s).segments) :
    '.' ∉ i.toList := by
  rw [segments_ofDotted] at h
  obtain ⟨part, hpart, rfl⟩ := List.mem_map.1 h
  rw [String.toList_ofList]
  exact Text.not_mem_of_mem_splitOn hpart

/-- Joining with dots takes back what splitting at dots has done. -/
theorem intercalate_ofDotted (s : String) : ".".intercalate (ofDotted s).segments = s := by
  have hparts : String.toList ∘ String.ofList = id := funext fun _ => String.toList_ofList
  rw [← String.toList_inj, String.toList_intercalate, segments_ofDotted, List.map_map, hparts,
    List.map_id]
  exact List.intercalate_splitOn '.'

/-- Splitting at dots takes back what joining with dots has done, for segments without dots. -/
theorem segments_ofDotted_intercalate {segments : List Ident} (hne : segments ≠ [])
    (h : ∀ i ∈ segments, '.' ∉ i.toList) :
    (ofDotted (".".intercalate segments)).segments = segments := by
  have hchars : ∀ cs ∈ segments.map String.toList, '.' ∉ cs := List.forall_mem_map.2 h
  have hsplit : (".".toList.intercalate (segments.map String.toList)).splitOn '.' =
      segments.map String.toList :=
    List.splitOn_intercalate '.' hchars (mt List.map_eq_nil_iff.1 hne)
  have hparts : String.ofList ∘ String.toList = id := funext fun _ => String.ofList_toList
  rw [segments_ofDotted, String.toList_intercalate, hsplit, List.map_map, hparts, List.map_id]

theorem ofDotted_eq_simple_iff {s : String} :
    (∃ i, ofDotted s = simple i) ↔ '.' ∉ s.toList := by
  have hlength := length_segments_ofDotted s
  rw [← List.count_eq_zero]
  constructor
  · rintro ⟨i, hi⟩
    rw [hi, segments, List.length_singleton] at hlength
    omega
  · intro hcount
    rw [hcount] at hlength
    obtain ⟨i, hi⟩ := List.length_eq_one_iff.1 hlength
    exact ⟨i, eq_of_segments_eq (whole_ofDotted s) trivial hi⟩

/-- Splitting a text at its dots and joining segments with dots are inverse to each other. A text has
one segment more than dots, no segment has a dot, and the segments with dots between them are the text
again. The name is simple exactly if there is no dot, its last segment is the object itself, and it is
written on any context and by any renderer: the splitting never makes a name with too few segments.
Segments without dots, empty ones included, are all found again when they are joined; one alone is a
simple name, and several are a compound one. -/
theorem ofDotted_joined :
    (∀ s : String,
      (ofDotted s).segments.length = s.toList.count '.' + 1 ∧
      (∀ i ∈ (ofDotted s).segments, '.' ∉ i.toList) ∧
      ".".intercalate (ofDotted s).segments = s ∧
      ((∃ i, ofDotted s = simple i) ↔ '.' ∉ s.toList) ∧
      (∀ (o : Options) (call : Caller) (c : Context), ∃ c',
        Script.run o call c (ofDotted s).script = .done c' ∧
          c.Adds (separated "." (ofDotted s).segments) c') ∧
      ∃ before last, (ofDotted s).segments = before ++ [last] ∧ (ofDotted s).base? = some last) ∧
    (∀ i : Ident, '.' ∉ i.toList → ofDotted (".".intercalate [i]) = simple i) ∧
    ∀ segments : List Ident, 2 ≤ segments.length → (∀ i ∈ segments, '.' ∉ i.toList) →
      ofDotted (".".intercalate segments) = compound segments := by
  refine ⟨?_, ?_, ?_⟩
  · intro s
    have hne : (ofDotted s).segments ≠ [] := by
      rw [← List.length_pos_iff, length_segments_ofDotted]
      exact Nat.succ_pos _
    refine ⟨length_segments_ofDotted s, fun i hi => not_mem_of_mem_ofDotted hi,
      intercalate_ofDotted s, ofDotted_eq_simple_iff, ?_, ?_⟩
    · rw [← spelling_of_whole (whole_ofDotted s)]
      exact (layout_of_whole (whole_ofDotted s)).run_idents
    · exact ⟨_, _, (List.dropLast_concat_getLast hne).symm, List.getLast?_eq_some_getLast hne⟩
  · intro i hi
    have hsegments := segments_ofDotted_intercalate (List.cons_ne_nil i [])
      (List.forall_mem_singleton.2 hi)
    exact eq_of_segments_eq (whole_ofDotted _) trivial hsegments
  · intro segments hlength h
    have hne : segments ≠ [] := by
      rintro rfl
      exact absurd hlength (by decide)
    exact eq_of_segments_eq (whole_ofDotted _) hlength (segments_ofDotted_intercalate hne h)

/-- Dots at both ends and a doubled one give empty segments, and a quote is a character like others. -/
theorem ofDotted_joined_empty :
    ('.' ∉ "".toList ∧ ofDotted "" = simple "") ∧
      2 ≤ ["", "a\"", "", ""].length ∧ (∀ i ∈ ["", "a\"", "", ""], '.' ∉ i.toList) ∧
      ofDotted ".a\".." = compound ["", "a\"", "", ""] := by
  have hempty : '.' ∉ "".toList := by decide
  have hdots : ∀ i ∈ ["", "a\"", "", ""], '.' ∉ i.toList := by decide
  exact ⟨⟨hempty, ofDotted_joined.2.1 "" hempty⟩, by decide, hdots,
    ofDotted_joined.2.2 ["", "a\"", "", ""] (by decide) hdots⟩

end Name

end TypedSql
