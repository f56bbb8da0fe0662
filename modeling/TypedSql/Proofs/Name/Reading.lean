import TypedSql.Proofs.Name

/-! Reading identifiers back. A reader takes quoted segments as long as a separator follows them, and it
accepts exactly what is written: names, and lists of identifiers in brackets, end where they do, whatever
their identifiers hold and whatever stands behind them. -/

namespace TypedSql

namespace Text

/-- Reads from behind an opening quote to the quote that closes it. A doubled quote stands for one. -/
def closed? (quote : Char) : List Char → Option (List Char × List Char)
  | [] => none
  | c :: cs =>
    if c = quote then
      match cs with
      | [] => some ([], [])
      | d :: rest =>
        if d = quote then (closed? quote rest).map fun found => (quote :: found.1, found.2)
        else some ([], d :: rest)
    else (closed? quote cs).map fun found => (c :: found.1, found.2)

/-- Reads one identifier. -/
def segment? : List Char → Option (Ident × List Char)
  | [] => none
  | c :: cs =>
    if c = '"' then (closed? '"' cs).map fun found => (String.ofList found.1, found.2) else none

theorem closed?_quote (quote : Char) (cs : List Char) : closed? quote (quote :: quote :: cs) =
    (closed? quote cs).map fun found => (quote :: found.1, found.2) := by
  rw [closed?.eq_def]
  simp only [if_true]

theorem closed?_of_ne {quote c : Char} (hc : c ≠ quote) (cs : List Char) : closed? quote (c :: cs) =
    (closed? quote cs).map fun found => (c :: found.1, found.2) := by
  rw [closed?.eq_def]
  exact if_neg hc

theorem closed?_of_head?_ne {quote : Char} {cs : List Char} (h : cs.head? ≠ some quote) :
    closed? quote (quote :: cs) = some ([], cs) := by
  rw [closed?.eq_def]
  cases cs with
  | nil => exact if_pos rfl
  | cons d cs => exact (if_pos rfl).trans (if_neg fun hd => h (congrArg some hd))

/-- What is read from behind an opening quote is what was doubled, and no quote follows. -/
theorem closed?_eq_some_iff {quote : Char} {cs contents rest : List Char} :
    closed? quote cs = some (contents, rest) ↔
      cs = doubled quote contents ++ quote :: rest ∧ rest.head? ≠ some quote := by
  constructor
  · intro h
    fun_induction closed? quote cs generalizing contents with
    | case1 => cases h
    | case2 =>
        cases h
        exact ⟨rfl, by simp⟩
    | case3 rest' ih =>
        obtain ⟨⟨contents', rest⟩, hread, hfound⟩ := Option.map_eq_some_iff.1 h
        cases hfound
        obtain ⟨hcs, hrest⟩ := ih hread
        refine ⟨?_, hrest⟩
        rw [hcs, doubled, if_pos rfl]
        rfl
    | case4 d rest' hd =>
        cases h
        refine ⟨rfl, fun hhead => hd (Option.some.inj hhead)⟩
    | case5 c cs hc ih =>
        obtain ⟨⟨contents', rest⟩, hread, hfound⟩ := Option.map_eq_some_iff.1 h
        cases hfound
        obtain ⟨hcs, hrest⟩ := ih hread
        refine ⟨?_, hrest⟩
        rw [hcs, doubled, if_neg hc]
        rfl
  · rintro ⟨rfl, hrest⟩
    induction contents with
    | nil => exact closed?_of_head?_ne hrest
    | cons c contents ih =>
        by_cases hc : c = quote
        · rw [doubled, if_pos hc, hc, List.cons_append, List.cons_append, closed?_quote, ih,
            Option.map_some]
        · rw [doubled, if_neg hc, List.cons_append, closed?_of_ne hc, ih, Option.map_some]

/-- An identifier is read from what it is written as, if no quote follows. -/
theorem segment?_eq_some_iff {cs rest : List Char} {i : Ident} : segment? cs = some (i, rest) ↔
    cs = (quoted '"' i).toList ++ rest ∧ rest.head? ≠ some '"' := by
  rw [toList_quoted_append]
  cases cs with
  | nil => simp [segment?]
  | cons c cs =>
      rw [segment?, List.cons.injEq, and_assoc]
      by_cases hc : c = '"'
      · rw [if_pos hc, Option.map_eq_some_iff]
        constructor
        · rintro ⟨⟨contents, rest'⟩, hread, hfound⟩
          cases hfound
          rw [String.toList_ofList]
          exact ⟨hc, closed?_eq_some_iff.1 hread⟩
        · rintro ⟨-, h⟩
          exact ⟨(i.toList, rest), closed?_eq_some_iff.2 h, by rw [String.ofList_toList]⟩
      · rw [if_neg hc]
        exact ⟨nofun, fun h => absurd h.1 hc⟩

theorem length_lt_of_segment? {cs rest : List Char} {i : Ident} (h : segment? cs = some (i, rest)) :
    rest.length < cs.length := by
  rw [(segment?_eq_some_iff.1 h).1, toList_quoted_append, List.length_cons, List.length_append,
    List.length_cons]
  omega

/-- Reads identifiers as long as the separator stands behind them. -/
def separated? (separator : String) (cs : List Char) : Option (List Ident × List Char) :=
  match _h : segment? cs with
  | none => none
  | some (i, rest) =>
    if separator.toList <+: rest then
      (separated? separator (rest.drop separator.toList.length)).map fun found =>
        (i :: found.1, found.2)
    else some ([i], rest)
termination_by cs.length
decreasing_by
  have hlength := length_lt_of_segment? ‹_›
  rw [List.length_drop]
  omega

theorem separated?_of_segment? {separator : String} {cs rest : List Char} {i : Ident}
    (h : segment? cs = some (i, rest)) : separated? separator cs =
      if separator.toList <+: rest then
        (separated? separator (rest.drop separator.toList.length)).map fun found =>
          (i :: found.1, found.2)
      else some ([i], rest) := by
  rw [separated?]
  split
  · next hnone =>
      rw [h] at hnone
      cases hnone
  · next hsome =>
      rw [h] at hsome
      cases hsome
      rfl

theorem exists_separated_eq (separator : String) (i : Ident) (is : List Ident) :
    ∃ more, separated separator (i :: is) = '"' :: more := by
  by_cases h : is = []
  · rw [h, separated_singleton, ← List.append_nil (quoted '"' i).toList, toList_quoted_append]
    exact ⟨_, rfl⟩
  · rw [separated_cons separator i h, toList_quoted_append]
    exact ⟨_, rfl⟩

/-- One identifier or more are read from what they are written as, if neither a quote nor the separator
follows. The separator must not begin with a quote. -/
theorem separated?_eq_some_iff {separator : String}
    (hseparator : ∀ cs, (separator.toList ++ cs).head? ≠ some '"') {cs rest : List Char}
    {is : List Ident} : separated? separator cs = some (is, rest) ↔
      is ≠ [] ∧ cs = separated separator is ++ rest ∧ rest.head? ≠ some '"' ∧
        ¬ separator.toList <+: rest := by
  constructor
  · intro h
    fun_induction separated? separator cs generalizing is with
    | case1 => cases h
    | case2 cs i rest' hsegment hmore ih =>
        obtain ⟨⟨is', rest⟩, hread, hfound⟩ := Option.map_eq_some_iff.1 h
        cases hfound
        obtain ⟨hne, hcs, hrest⟩ := ih hread
        refine ⟨List.cons_ne_nil i is', ?_, hrest⟩
        rw [(segment?_eq_some_iff.1 hsegment).1, separated_cons separator i hne,
          List.append_assoc, List.append_assoc, ← hcs, List.prefix_iff_eq_append.1 hmore]
    | case3 cs i rest' hsegment hlast =>
        cases h
        obtain ⟨hcs, hquote⟩ := segment?_eq_some_iff.1 hsegment
        refine ⟨List.cons_ne_nil i [], ?_, hquote, hlast⟩
        rw [hcs, separated_singleton]
  · rintro ⟨hne, rfl, hquote, hlast⟩
    induction is with
    | nil => exact absurd rfl hne
    | cons i is ih =>
        by_cases hnil : is = []
        · rw [hnil, separated_singleton,
            separated?_of_segment? (segment?_eq_some_iff.2 ⟨rfl, hquote⟩), if_neg hlast]
        · rw [separated_cons separator i hnil, List.append_assoc, List.append_assoc,
            separated?_of_segment? (segment?_eq_some_iff.2 ⟨rfl, hseparator _⟩),
            if_pos (List.prefix_append _ _), List.drop_left, ih hnil, Option.map_some]

/-- Where the separator is a dot. -/
theorem separated?_dot_eq_some_iff {cs rest : List Char} {is : List Ident} :
    separated? "." cs = some (is, rest) ↔
      is ≠ [] ∧ cs = separated "." is ++ rest ∧ rest.head? ≠ some '"' ∧ rest.head? ≠ some '.' := by
  have hdot : ".".toList <+: rest ↔ rest.head? = some '.' := by
    cases rest with
    | nil => simp
    | cons c rest => simp [eq_comm]
  rw [separated?_eq_some_iff fun cs => by simp, hdot]

/-- Reads identifiers in brackets, with commas between them. -/
def bracketed? : List Char → Option (List Ident × List Char)
  | '(' :: ')' :: rest => some ([], rest)
  | '(' :: cs =>
    match separated? ", " cs with
    | some (is, ')' :: rest) => some (is, rest)
    | _ => none
  | _ => none

/-- Identifiers in brackets are read from what they are written as, whatever follows. -/
theorem bracketed?_eq_some_iff {cs rest : List Char} {is : List Ident} :
    bracketed? cs = some (is, rest) ↔ cs = '(' :: (separated ", " is ++ ')' :: rest) := by
  have hcomma (cs : List Char) : (", ".toList ++ cs).head? ≠ some '"' := by simp
  constructor
  · fun_cases bracketed? cs with
    | case1 rest' =>
        intro h
        cases h
        rfl
    | case2 cs hne is' rest' hread =>
        intro h
        cases h
        rw [((separated?_eq_some_iff hcomma).1 hread).2.1]
    | case3 | case4 =>
        intro h
        cases h
  · rintro rfl
    cases is with
    | nil => rfl
    | cons i is =>
        have hread : separated? ", " (separated ", " (i :: is) ++ ')' :: rest) =
            some (i :: is, ')' :: rest) :=
          (separated?_eq_some_iff hcomma).2 ⟨List.cons_ne_nil i is, rfl, by simp, by simp⟩
        obtain ⟨more, hmore⟩ := exists_separated_eq ", " i is
        rw [hmore, List.cons_append] at hread ⊢
        rw [bracketed?, hread]
        · rfl
        · intro rest' he
          cases he

end Text

open Text

/-- The script writes a text, on any context and by any renderer, and a reader finds the identifiers in
it and behind them whatever follows the text, if that begins with none of the marks. -/
def Script.ReadBy (read? : List Char → Option (List Ident × List Char)) (marks : List Char)
    (is : List Ident) (s : Script) : Prop :=
  ∀ (o : Options) (call : Caller) (c : Context), ∃ c' cs, run o call c s = .done c' ∧ c.Adds cs c' ∧
    ∀ rest, (∀ mark ∈ marks, rest.head? ≠ some mark) → read? (cs ++ rest) = some (is, rest)

/-- For this it is enough that the reader reads the spelling. -/
theorem Layout.readBy {is : List Ident} {s : Script} (h : Layout (is.map Site.ident) s)
    {read? : List Char → Option (List Ident × List Char)} {marks : List Char}
    (hread : ∀ rest, (∀ mark ∈ marks, rest.head? ≠ some mark) →
      read? (s.spelling ++ rest) = some (is, rest)) : s.ReadBy read? marks is := by
  intro o call c
  obtain ⟨c', hrun, hadds⟩ := h.run_idents o call c
  exact ⟨c', s.spelling, hrun, hadds, hread⟩

theorem Script.readBy_idents (is : List Ident) : (idents is).ReadBy bracketed? [] is := by
  refine (layout_idents is).readBy fun rest _ => ?_
  rw [spelling_idents_eq, bracketed?_eq_some_iff, List.cons_append, List.append_assoc]
  rfl

/-- Lists that are written alike are the same. -/
theorem Script.text_idents_eq_iff {is is' : List Ident} {o o' : Options} {call call' : Caller}
    {c c₁ c₂ : Context} (h₁ : run o call c (idents is) = .done c₁)
    (h₂ : run o' call' c (idents is') = .done c₂) : c₁.sql = c₂.sql ↔ is = is' := by
  rw [← String.toList_inj, (layout_idents is).sql_of_run_idents h₁,
    (layout_idents is').sql_of_run_idents h₂, List.append_right_inj]
  constructor
  · intro h
    rw [spelling_idents_eq, spelling_idents_eq] at h
    have hread := bracketed?_eq_some_iff.2 h
    rw [bracketed?_eq_some_iff.2 rfl] at hread
    cases hread
    rfl
  · rintro rfl
    rfl

namespace Name

theorem readBy_of_whole {name : Name} (h : name.Whole) :
    name.script.ReadBy (separated? ".") ['"', '.'] name.segments := by
  refine (layout_of_whole h).readBy fun rest hrest => ?_
  rw [List.forall_mem_cons, List.forall_mem_singleton] at hrest
  rw [spelling_of_whole h, separated?_dot_eq_some_iff]
  exact ⟨segments_ne_nil h, rfl, hrest⟩

/-- Names that are written alike are the same. -/
theorem text_eq_iff {name name' : Name} {o o' : Options} {call call' : Caller} {c c₁ c₂ : Context}
    (h₁ : Script.run o call c name.script = .done c₁)
    (h₂ : Script.run o' call' c name'.script = .done c₂) : c₁.sql = c₂.sql ↔ name = name' := by
  have hwhole := whole_of_run h₁
  have hwhole' := whole_of_run h₂
  have hread {name : Name} (h : name.Whole) :
      separated? "." name.script.spelling = some (name.segments, []) := by
    rw [spelling_of_whole h, separated?_dot_eq_some_iff]
    exact ⟨segments_ne_nil h, (List.append_nil _).symm, nofun, nofun⟩
  rw [← String.toList_inj, (layout_of_whole hwhole).sql_of_run_idents h₁,
    (layout_of_whole hwhole').sql_of_run_idents h₂, List.append_right_inj]
  constructor
  · intro h
    have hsegments := hread hwhole
    rw [h, hread hwhole'] at hsegments
    exact eq_of_segments_eq hwhole hwhole' (Prod.mk.inj (Option.some.inj hsegments)).1.symm
  · rintro rfl
    rfl

/-- Names and lists of identifiers delimit themselves, whatever the identifiers hold. A reader of quoted
segments with dots between them finds in a written name, simple or compound, exactly its segments, and
behind them whatever follows, unless that begins with a quote or a dot. A reader of a list in brackets
finds exactly the list, the empty one included, and whatever follows it. So two names are written alike
only if they are the same, and a simple one is never written like a compound one; lists are written
alike only if they are the same, too. -/
theorem readBy_scripts :
    (∀ i : Ident, (simple i).script.ReadBy (separated? ".") ['"', '.'] [i]) ∧
    (∀ segments : List Ident, 2 ≤ segments.length →
      (compound segments).script.ReadBy (separated? ".") ['"', '.'] segments ∧
        (Script.compound segments).ReadBy (separated? ".") ['"', '.'] segments) ∧
    (∀ is : List Ident, (Script.idents is).ReadBy bracketed? [] is) ∧
    (∀ (name name' : Name) (o o' : Options) (call call' : Caller) (c c₁ c₂ : Context),
      Script.run o call c name.script = .done c₁ → Script.run o' call' c name'.script = .done c₂ →
        (c₁.sql = c₂.sql ↔ name = name')) ∧
    ∀ (is is' : List Ident) (o o' : Options) (call call' : Caller) (c c₁ c₂ : Context),
      Script.run o call c (Script.idents is) = .done c₁ →
        Script.run o' call' c (Script.idents is') = .done c₂ → (c₁.sql = c₂.sql ↔ is = is') := by
  refine ⟨?_, ?_, Script.readBy_idents, ?_, ?_⟩
  · intro i
    have hwhole : (simple i).Whole := trivial
    exact readBy_of_whole hwhole
  · intro segments h
    have hwhole : (compound segments).Whole := h
    exact ⟨readBy_of_whole hwhole, readBy_of_whole hwhole⟩
  · exact fun _ _ _ _ _ _ _ _ _ h₁ h₂ => text_eq_iff h₁ h₂
  · exact fun _ _ _ _ _ _ _ _ _ h₁ h₂ => Script.text_idents_eq_iff h₁ h₂

/-- A segment that holds what stands between two others is read as one, and an empty one is read too.
The name and the list that hold it are written differently from those that it imitates. -/
theorem readBy_scripts_quotes :
    let segments : List Ident := ["a\".\"b", ""]
    let rest := " AS \"x\"".toList
    let call : Caller := fun _ _ _ => .unfinished
    (2 ≤ segments.length ∧ (∀ mark ∈ ['"', '.'], rest.head? ≠ some mark) ∧
      separated? "." ("\"a\"\".\"\"b\".\"\"".toList ++ rest) = some (segments, rest)) ∧
    (∃ c₁ c₂, Script.run {} call {} (simple "a\".\"b").script = .done c₁ ∧
      Script.run {} call {} (compound ["a", "b"]).script = .done c₂ ∧ c₁.sql ≠ c₂.sql) ∧
    ∃ c₁ c₂, Script.run {} call {} (Script.idents ["a\", \"b"]) = .done c₁ ∧
      Script.run {} call {} (Script.idents ["a", "b"]) = .done c₂ ∧ c₁.sql ≠ c₂.sql := by
  intro segments rest call
  have hlength : 2 ≤ segments.length := by decide
  have hhead : rest.head? = some ' ' := rfl
  have hrest : ∀ mark ∈ ['"', '.'], rest.head? ≠ some mark := by
    rw [hhead, List.forall_mem_cons, List.forall_mem_singleton]
    decide
  obtain ⟨c', cs, hrun, hadds, hread⟩ := (readBy_scripts.2.1 segments hlength).1 {} call {}
  cases hrun
  have hcs : cs = "\"a\"\".\"\"b\".\"\"".toList := hadds.sql.symm
  rw [hcs] at hread
  refine ⟨⟨hlength, hrest, hread rest hrest⟩, ⟨_, _, rfl, rfl, ?_⟩, ⟨_, _, rfl, rfl, ?_⟩⟩
  · exact mt (readBy_scripts.2.2.2.1 (simple "a\".\"b") (compound ["a", "b"]) {} {} call call {} _ _
      rfl rfl).1 (by decide)
  · exact mt (readBy_scripts.2.2.2.2 ["a\", \"b"] ["a", "b"] {} {} call call {} _ _ rfl rfl).1
      (by decide)

end Name

end TypedSql
