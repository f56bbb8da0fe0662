import Mathlib.Data.List.TakeDrop
import TypedSql.Json.Number

/-! The grammar of JSON numbers. It says which texts spell a numeral, without reading them; the reader
finds a numeral in a text if and only if the text spells it, with blanks around it. -/

namespace TypedSql

namespace Numeral

/-! ### The grammar -/

/-- Digits, one at least. -/
def Digits (ds : List Char) : Prop :=
  ds ≠ [] ∧ ∀ c ∈ ds, c.isDigit = true

/-- The whole part: a zero, or digits that do not begin with one. -/
inductive SpellsWhole : List Char → Prop
  | zero : SpellsWhole ['0']
  | digits {c : Char} {ds : List Char} (hc : c.isDigit = true) (hne : c ≠ '0')
      (hds : ∀ d ∈ ds, d.isDigit = true) : SpellsWhole (c :: ds)

/-- The fraction: nothing, or a point and digits. -/
inductive SpellsFraction : Option (List Char) → List Char → Prop
  | absent : SpellsFraction none []
  | point {ds : List Char} (hds : Digits ds) : SpellsFraction (some ds) ('.' :: ds)

/-- The exponent: nothing, or its letter and digits that may have a sign. -/
inductive SpellsExponent : Option (Bool × List Char) → List Char → Prop
  | absent : SpellsExponent none []
  | unsigned {mark : Char} {ds : List Char} (hmark : mark = 'e' ∨ mark = 'E') (hds : Digits ds) :
      SpellsExponent (some (false, ds)) (mark :: ds)
  | plus {mark : Char} {ds : List Char} (hmark : mark = 'e' ∨ mark = 'E') (hds : Digits ds) :
      SpellsExponent (some (false, ds)) (mark :: '+' :: ds)
  | minus {mark : Char} {ds : List Char} (hmark : mark = 'e' ∨ mark = 'E') (hds : Digits ds) :
      SpellsExponent (some (true, ds)) (mark :: '-' :: ds)

/-- The text is one JSON number, and these are its parts. -/
def Spells (n : Numeral) (cs : List Char) : Prop :=
  ∃ f e, cs = (if n.negative then ['-'] else []) ++ (n.whole ++ (f ++ e)) ∧
    SpellsWhole n.whole ∧ SpellsFraction n.fraction f ∧ SpellsExponent n.exponent e

/-- A JSON number with nothing but blanks around it. -/
def Stands (n : Numeral) (text : List Char) : Prop :=
  ∃ before cs after, text = before ++ (cs ++ after) ∧ (∀ c ∈ before, isBlank c = true) ∧
    (∀ c ∈ after, isBlank c = true) ∧ n.Spells cs

theorem SpellsWhole.isDigits {ds : List Char} (h : SpellsWhole ds) : Digits ds := by
  cases h with
  | zero => exact ⟨List.cons_ne_nil _ _, List.forall_mem_singleton.2 rfl⟩
  | digits hc hne hds => exact ⟨List.cons_ne_nil _ _, List.forall_mem_cons.2 ⟨hc, hds⟩⟩

/-! ### The reader accepts what the grammar does -/

/-- No digit follows. -/
def Ends (rest : List Char) : Prop :=
  ∀ c ∈ rest.head?, c.isDigit = false

theorem digits?_append {ds rest : List Char} (hds : Digits ds) (hrest : Ends rest) :
    digits? (ds ++ rest) = some (ds, rest) := by
  have htake : rest.takeWhile Char.isDigit = [] := by
    cases rest with
    | nil => rfl
    | cons c rest => exact List.takeWhile_cons_of_neg (by simp [hrest c rfl])
  have hdrop : rest.dropWhile Char.isDigit = rest := by
    cases rest with
    | nil => rfl
    | cons c rest => exact List.dropWhile_cons_of_neg (by simp [hrest c rfl])
  rw [digits?, List.span_eq_takeWhile_dropWhile, List.takeWhile_append_of_pos hds.2,
    List.dropWhile_append_of_pos hds.2, htake, hdrop, List.append_nil]
  obtain ⟨c, cs, rfl⟩ := List.exists_cons_of_ne_nil hds.1
  rfl

theorem eq_append_of_digits? {cs ds rest : List Char} (h : digits? cs = some (ds, rest)) :
    cs = ds ++ rest ∧ Digits ds := by
  rw [digits?, List.span_eq_takeWhile_dropWhile] at h
  have hall : ∀ c ∈ cs.takeWhile Char.isDigit, c.isDigit = true :=
    List.all_eq_true.1 List.all_takeWhile
  have happend := List.takeWhile_append_dropWhile (p := Char.isDigit) (l := cs)
  cases htake : cs.takeWhile Char.isDigit with
  | nil =>
      rw [htake] at h
      cases h
  | cons c taken =>
      rw [htake] at h happend hall
      cases h
      exact ⟨happend.symm, List.cons_ne_nil _ _, hall⟩

theorem whole?_append {ds rest : List Char} (hds : SpellsWhole ds) (hrest : Ends rest) :
    whole? (ds ++ rest) = some (ds, rest) := by
  rw [whole?, digits?_append hds.isDigits hrest]
  cases hds with
  | zero => rfl
  | digits hc hne hds =>
      split
      · rename_i heq
        cases heq
        exact absurd rfl hne
      · rfl

theorem eq_append_of_whole? {cs ds rest : List Char} (h : whole? cs = some (ds, rest)) :
    cs = ds ++ rest ∧ SpellsWhole ds := by
  rw [whole?] at h
  split at h
  · cases h
  · rename_i hzero
    obtain ⟨happend, hne, hall⟩ := eq_append_of_digits? h
    refine ⟨happend, ?_⟩
    obtain ⟨c, tail, rfl⟩ := List.exists_cons_of_ne_nil hne
    rw [List.forall_mem_cons] at hall
    by_cases hc : c = '0'
    · subst hc
      cases tail with
      | nil => exact .zero
      | cons d tail => exact absurd h (hzero d tail rest)
    · exact .digits hall.1 hc hall.2

theorem fraction?_append {fraction : Option (List Char)} {f rest : List Char}
    (hf : SpellsFraction fraction f) (hrest : Ends rest) (hpoint : rest.head? ≠ some '.') :
    fraction? (f ++ rest) = some (fraction, rest) := by
  cases hf with
  | absent =>
      rw [List.nil_append, fraction?.eq_def]
      split
      · exact absurd rfl hpoint
      · rfl
  | point hds => rw [List.cons_append, fraction?, digits?_append hds hrest, Option.map_some]

theorem eq_append_of_fraction? {cs rest : List Char} {fraction : Option (List Char)}
    (h : fraction? cs = some (fraction, rest)) : ∃ f, cs = f ++ rest ∧ SpellsFraction fraction f := by
  rw [fraction?.eq_def] at h
  split at h
  · rename_i cs
    rw [Option.map_eq_some_iff] at h
    obtain ⟨⟨ds, rest'⟩, hds, he⟩ := h
    cases he
    obtain ⟨rfl, hdigits⟩ := eq_append_of_digits? hds
    exact ⟨'.' :: ds, rfl, .point hdigits⟩
  · cases h
    exact ⟨[], rfl, .absent⟩

/-- Digits do not begin with a sign. -/
theorem signedDigits?_append {ds rest : List Char} (hds : Digits ds) (hrest : Ends rest) :
    signedDigits? (ds ++ rest) = some ((false, ds), rest) := by
  obtain ⟨c, cs, rfl⟩ := List.exists_cons_of_ne_nil hds.1
  have hc := hds.2 c List.mem_cons_self
  rw [signedDigits?.eq_def]
  split
  · rename_i heq
    cases heq
    cases hc
  · rename_i heq
    cases heq
    cases hc
  · rw [digits?_append hds hrest, Option.map_some]

theorem exponent?_append {exponent : Option (Bool × List Char)} {e rest : List Char}
    (he : SpellsExponent exponent e) (hrest : Ends rest)
    (hmark : ∀ c ∈ rest.head?, c ≠ 'e' ∧ c ≠ 'E') :
    exponent? (e ++ rest) = some (exponent, rest) := by
  cases he with
  | absent =>
      cases rest with
      | nil => rfl
      | cons c rest =>
          have hc : ¬ (c = 'e' ∨ c = 'E') := not_or.2 (hmark c rfl)
          rw [List.nil_append, exponent?, if_neg hc]
  | unsigned hletter hds =>
      rw [List.cons_append, exponent?, if_pos hletter, signedDigits?_append hds hrest,
        Option.map_some]
  | plus hletter hds | minus hletter hds =>
      rw [List.cons_append, List.cons_append, exponent?, if_pos hletter, signedDigits?,
        digits?_append hds hrest, Option.map_some, Option.map_some]

theorem eq_append_of_exponent? {cs rest : List Char} {exponent : Option (Bool × List Char)}
    (h : exponent? cs = some (exponent, rest)) : ∃ e, cs = e ++ rest ∧ SpellsExponent exponent e := by
  cases cs with
  | nil =>
      cases h
      exact ⟨[], rfl, .absent⟩
  | cons mark cs =>
      rw [exponent?] at h
      by_cases hmark : mark = 'e' ∨ mark = 'E'
      · rw [if_pos hmark, Option.map_eq_some_iff] at h
        obtain ⟨⟨signed, rest'⟩, hsigned, he⟩ := h
        cases he
        rw [signedDigits?.eq_def] at hsigned
        split at hsigned <;> rw [Option.map_eq_some_iff] at hsigned <;>
          obtain ⟨⟨ds, rest'⟩, hds, he⟩ := hsigned <;> cases he <;>
          obtain ⟨rfl, hdigits⟩ := eq_append_of_digits? hds
        · exact ⟨mark :: '+' :: ds, rfl, .plus hmark hdigits⟩
        · exact ⟨mark :: '-' :: ds, rfl, .minus hmark hdigits⟩
        · exact ⟨mark :: ds, rfl, .unsigned hmark hdigits⟩
      · rw [if_neg hmark] at h
        cases h
        exact ⟨[], rfl, .absent⟩

theorem eq_append_sign (cs : List Char) :
    cs = (if (sign cs).1 then ['-'] else []) ++ (sign cs).2 := by
  cases cs with
  | nil => rfl
  | cons c cs =>
      by_cases hc : c = '-'
      · subst hc
        rfl
      · have hsign : sign (c :: cs) = (false, c :: cs) := by
          rw [sign.eq_def]
          split
          · rename_i heq
            exact absurd (List.cons.inj heq).1 hc
          · rfl
        rw [hsign]
        rfl

theorem sign_append (negative : Bool) {cs : List Char} (hcs : cs.head? ≠ some '-') :
    sign ((if negative then ['-'] else []) ++ cs) = (negative, cs) := by
  cases negative with
  | true => rfl
  | false =>
      rw [if_neg Bool.false_ne_true, List.nil_append, sign.eq_def]
      split
      · exact absurd rfl hcs
      · rfl

/-! ### What begins with what -/

theorem not_isDigit_of_isBlank {c : Char} (h : isBlank c = true) :
    c.isDigit = false ∧ c ≠ '.' ∧ c ≠ 'e' ∧ c ≠ 'E' := by
  simp only [isBlank, Bool.or_eq_true, beq_iff_eq] at h
  rcases h with ((rfl | rfl) | rfl) | rfl <;> decide

/-- Behind the whole part and its fraction there is no further digit and no point. -/
theorem SpellsExponent.head?_append {exponent : Option (Bool × List Char)} {e rest : List Char}
    (he : SpellsExponent exponent e) (hrest : ∀ c ∈ rest.head?, c.isDigit = false ∧ c ≠ '.') :
    ∀ c ∈ (e ++ rest).head?, c.isDigit = false ∧ c ≠ '.' := by
  have hmark {mark : Char} (hmark : mark = 'e' ∨ mark = 'E') : mark.isDigit = false ∧ mark ≠ '.' := by
    rcases hmark with rfl | rfl <;> decide
  cases he with
  | absent => exact hrest
  | unsigned hletter _ | plus hletter _ | minus hletter _ =>
      rintro c ⟨⟩
      exact hmark hletter

theorem SpellsFraction.ends {fraction : Option (List Char)} {f rest : List Char}
    (hf : SpellsFraction fraction f) (hrest : Ends rest) : Ends (f ++ rest) := by
  cases hf with
  | absent => exact hrest
  | point _ =>
      rintro c ⟨⟩
      rfl

/-- A number begins with a digit, its sign apart. -/
theorem SpellsWhole.head?_append {whole : List Char} (h : SpellsWhole whole) (rest : List Char) :
    ∀ c ∈ (whole ++ rest).head?, c.isDigit = true := by
  obtain ⟨c, cs, hlist⟩ := List.exists_cons_of_ne_nil h.isDigits.1
  have hall := h.isDigits.2
  rw [hlist] at hall ⊢
  rintro c ⟨⟩
  exact hall _ List.mem_cons_self

theorem not_isBlank_of_head? {body : List Char} (h : ∀ c ∈ body.head?, c.isDigit = true)
    (negative : Bool) : ∀ c ∈ ((if negative then ['-'] else []) ++ body).head?, isBlank c = false := by
  cases negative with
  | true =>
      rintro c ⟨⟩
      rfl
  | false =>
      intro c hc
      refine Bool.eq_false_iff.2 fun hblank => ?_
      have hdigit := h c hc
      rw [(not_isDigit_of_isBlank hblank).1] at hdigit
      cases hdigit

theorem dropWhile_isBlank {before body : List Char} (hbefore : ∀ c ∈ before, isBlank c = true)
    (hbody : ∀ c ∈ body.head?, isBlank c = false) : (before ++ body).dropWhile isBlank = body := by
  rw [List.dropWhile_append_of_pos hbefore]
  cases body with
  | nil => rfl
  | cons c cs => exact List.dropWhile_cons_of_neg (by simp [hbody c rfl])

/-! ### The reader and the grammar agree -/

theorem stands_of_read? {text : List Char} {n : Numeral} (h : read? text = some n) :
    n.Stands text := by
  simp only [read?, Option.bind_eq_bind, Option.bind_eq_some_iff] at h
  obtain ⟨⟨whole, afterWhole⟩, hwhole, ⟨fraction, afterFraction⟩, hfraction,
    ⟨exponent, after⟩, hexponent, h⟩ := h
  dsimp only at hfraction hexponent h
  split at h
  · rename_i hafter
    cases h
    obtain ⟨hwhole, hspells⟩ := eq_append_of_whole? hwhole
    obtain ⟨f, rfl, hf⟩ := eq_append_of_fraction? hfraction
    obtain ⟨e, rfl, he⟩ := eq_append_of_exponent? hexponent
    have hsign := eq_append_sign (text.dropWhile isBlank)
    rw [hwhole] at hsign
    refine ⟨text.takeWhile isBlank, _, after, ?_, List.all_eq_true.1 List.all_takeWhile,
      List.all_eq_true.1 hafter, ⟨f, e, rfl, hspells, hf, he⟩⟩
    have htext := List.takeWhile_append_dropWhile (p := isBlank) (l := text)
    rw [hsign] at htext
    simpa only [List.append_assoc] using htext.symm
  · cases h

theorem read?_of_stands {text : List Char} {n : Numeral} (h : n.Stands text) :
    read? text = some n := by
  obtain ⟨negative, whole, fraction, exponent⟩ := n
  obtain ⟨before, _, after, rfl, hbefore, hafter, f, e, rfl, hwhole, hf, he⟩ := h
  dsimp only at hwhole hf he ⊢
  have hblank : ∀ c ∈ after.head?, c.isDigit = false ∧ c ≠ '.' ∧ c ≠ 'e' ∧ c ≠ 'E' :=
    fun c hc => not_isDigit_of_isBlank (hafter c (List.mem_of_head? hc))
  have hexponent := he.head?_append fun c hc => ⟨(hblank c hc).1, (hblank c hc).2.1⟩
  have hfraction := hf.ends fun c hc => (hexponent c hc).1
  have hdigit := hwhole.head?_append (f ++ (e ++ after))
  have hdrop := dropWhile_isBlank hbefore (not_isBlank_of_head? hdigit negative)
  have hall : after.all isBlank = true := List.all_eq_true.2 hafter
  simp only [List.append_assoc]
  rw [read?, hdrop, sign_append negative fun h => absurd (hdigit _ h) (by decide)]
  simp only [Option.bind_eq_bind, whole?_append hwhole hfraction, Option.bind_some,
    fraction?_append hf (fun c hc => (hexponent c hc).1) fun h => (hexponent _ h).2 rfl,
    exponent?_append he (fun c hc => (hblank c hc).1) fun c hc => (hblank c hc).2.2, if_pos hall]

/-- The reader finds a numeral in a text if and only if the text spells it, with blanks around it. -/
theorem read?_eq_some_iff {text : List Char} {n : Numeral} :
    read? text = some n ↔ n.Stands text :=
  ⟨stands_of_read?, read?_of_stands⟩

end Numeral

end TypedSql
