import TypedSql.Proofs.Bracket.Query

/-! The words that begin clauses. Of a script only the words outside of brackets show. They are the
words of its parts, because each part that goes on behind another one starts with a separator, or what
stands before it ends where a new word begins. -/

namespace TypedSql

namespace Text

def isWordChar (c : Char) : Bool :=
  c.isAlphanum || c = '_'

/-- The words that begin a clause of a query, or a query that is combined with another one. -/
def clauseKeywords : List String :=
  ["WITH", "SELECT", "FROM", "WHERE", "GROUP", "HAVING", "UNION", "INTERSECT", "EXCEPT", "ORDER",
    "LIMIT", "OFFSET"]

/-- The words of a text that begin clauses, in their order. -/
def clauses (cs : List Char) : List String :=
  ((cs.splitOnP fun c => !isWordChar c).map String.ofList).filter (· ∈ clauseKeywords)

theorem clauses_append_cons (a b : List Char) {c : Char} (hc : isWordChar c = false) :
    clauses (a ++ c :: b) = clauses a ++ clauses b := by
  have hwords : (a ++ c :: b).splitOnP (fun c => !isWordChar c) =
      a.splitOnP (fun c => !isWordChar c) ++ b.splitOnP fun c => !isWordChar c :=
    List.splitOnP_append_cons a b (by rw [hc, Bool.not_false])
  rw [clauses, hwords, List.map_append, List.filter_append, clauses, clauses]

theorem isWordChar_of_isSeparator {c : Char} (h : isSeparator c = true) : isWordChar c = false := by
  simp only [isSeparator, Bool.or_eq_true, decide_eq_true_eq] at h
  rcases h with (((rfl | rfl) | rfl) | rfl) | rfl <;> rfl

/-- No word of a text goes on behind it where a separator follows. -/
theorem clauses_append {a b : List Char} (hb : Separated b) :
    clauses (a ++ b) = clauses a ++ clauses b := by
  cases b with
  | nil =>
      rw [List.append_nil]
      exact (List.append_nil _).symm
  | cons c b =>
      have hc := isWordChar_of_isSeparator hb
      have hcons : clauses (c :: b) = clauses b := clauses_append_cons [] b hc
      rw [clauses_append_cons a b hc, hcons]

theorem separated_append {a b : List Char} (ha : Separated a) (hb : Separated b) :
    Separated (a ++ b) := by
  cases a with
  | nil => exact hb
  | cons c a => exact ha

/-- A new word begins behind the text. -/
def Ended (cs : List Char) : Prop :=
  (cs.getLast?.all fun c => !isWordChar c) = true

instance (cs : List Char) : Decidable (Ended cs) :=
  inferInstanceAs (Decidable ((cs.getLast?.all fun c => !isWordChar c) = true))

theorem clauses_append_of_ended {a : List Char} (ha : Ended a) (b : List Char) :
    clauses (a ++ b) = clauses a ++ clauses b := by
  rcases List.eq_nil_or_concat a with rfl | ⟨a, c, rfl⟩
  · rfl
  · rw [List.concat_eq_append] at ha ⊢
    have hc : isWordChar c = false := by
      rwa [Ended, List.getLast?_concat, Option.all_some, Bool.not_eq_true'] at ha
    have hlast : clauses (a ++ [c]) = clauses a := by
      rw [clauses_append_cons a [] hc]
      exact List.append_nil _
    rw [List.append_assoc, List.singleton_append, clauses_append_cons a b hc, hlast]

/-- All but capital letters, and the capital letter of not-a-number. Each word that begins a clause has
a letter of another kind. -/
def isQuiet (c : Char) : Bool :=
  !c.isUpper || c = 'N'

def Quiet (w : String) : Prop :=
  ∀ c ∈ w.toList, isQuiet c = true

instance (w : String) : Decidable (Quiet w) :=
  List.decidableBAll (fun c => isQuiet c = true) w.toList

theorem not_quiet_of_mem : ∀ keyword ∈ clauseKeywords, ¬ Quiet keyword := by
  decide

theorem mem_of_mem_splitOnP {p : Char → Bool} {cs word : List Char} (h : word ∈ cs.splitOnP p)
    {c : Char} (hc : c ∈ word) : c ∈ cs := by
  induction cs generalizing word with
  | nil =>
      rw [List.splitOnP_nil, List.mem_singleton] at h
      rwa [h] at hc
  | cons d cs ih =>
      rw [List.splitOnP_cons_eq_if_modifyHead] at h
      split at h
      · rcases List.mem_cons.1 h with rfl | h
        · cases hc
        · exact List.mem_cons_of_mem _ (ih h hc)
      · obtain ⟨first, words, hwords⟩ := List.exists_cons_of_ne_nil (List.splitOnP_ne_nil p cs)
        rw [hwords] at ih h
        rw [List.modifyHead_cons] at h
        rcases List.mem_cons.1 h with rfl | h
        · rcases List.mem_cons.1 hc with rfl | hc
          · exact List.mem_cons_self
          · exact List.mem_cons_of_mem _ (ih List.mem_cons_self hc)
        · exact List.mem_cons_of_mem _ (ih (List.mem_cons_of_mem _ h) hc)

theorem Quiet.clauses_eq {w : String} (h : Quiet w) : clauses w.toList = [] := by
  rw [clauses, List.filter_eq_nil_iff]
  intro keyword hmem hkeyword
  obtain ⟨word, hword, rfl⟩ := List.mem_map.1 hmem
  refine not_quiet_of_mem _ (of_decide_eq_true hkeyword) ?_
  rw [Quiet, String.toList_ofList]
  exact fun c hc => h c (mem_of_mem_splitOnP hword hc)

theorem isQuiet_of_isDigit {c : Char} (h : c.isDigit = true) : isQuiet c = true := by
  rw [Char.isDigit, Bool.and_eq_true, decide_eq_true_eq, decide_eq_true_eq] at h
  have hupper : c.isUpper = false :=
    decide_eq_false fun hc => absurd (UInt32.le_trans hc.1 h.2) (by decide)
  rw [isQuiet, hupper, Bool.not_false, Bool.true_or]

/-- A fixed text without brackets, with the words of it that begin clauses. -/
def Brings (ks : List String) (w : String) : Prop :=
  BracketFree w ∧ clauses w.toList = ks

/-- A fixed text behind which a new word begins. -/
def Introduces (ks : List String) (w : String) : Prop :=
  Brings ks w ∧ Ended w.toList

/-- A fixed text that parts what stands before it from what follows. -/
def Parts (ks : List String) (w : String) : Prop :=
  Introduces ks w ∧ Lead w

/-- What shows of two texts and of what stands between them in brackets. -/
def frame (w w' : String) : List Char :=
  shown 0 (w.toList.map .outside) ++ shown 1 (w'.toList.map .outside)

/-- Two fixed texts that begin no clause, and the brackets that they put around what is between
them. -/
def Encloses (w w' : String) : Prop :=
  Opens w ∧ Closes w' ∧ clauses (frame w w') = []

instance (ks : List String) (w : String) : Decidable (Brings ks w) :=
  inferInstanceAs (Decidable (BracketFree w ∧ clauses w.toList = ks))

instance (ks : List String) (w : String) : Decidable (Introduces ks w) :=
  inferInstanceAs (Decidable (Brings ks w ∧ Ended w.toList))

instance (ks : List String) (w : String) : Decidable (Parts ks w) :=
  inferInstanceAs (Decidable (Introduces ks w ∧ Lead w))

instance (w w' : String) : Decidable (Encloses w w') :=
  inferInstanceAs (Decidable (Opens w ∧ Closes w' ∧ clauses (frame w w') = []))

end Text

open Text

namespace Site

/-- The site brings no text of its own. -/
def Fixed : Site → Prop :=
  Free fun _ => False

theorem Fixed.free {p : String → Prop} {site : Site} (h : site.Fixed) : site.Free p := by
  cases site with
  | operator text => exact h.elim
  | literal l =>
      cases l with
      | numeral text => exact h.elim
      | _ => trivial
  | _ => trivial

theorem forall_free_of_fixed {p : String → Prop} {sites : List Site}
    (h : ∀ site ∈ sites, site.Fixed) : ∀ site ∈ sites, site.Free p :=
  fun site hsite => (h site hsite).free

theorem forall_fixed_nest {inside : List Site} :
    (∀ site ∈ nest inside, site.Fixed) ↔ ∀ site ∈ inside, site.Fixed :=
  forall_free_nest

end Site

namespace Script

variable {o : Options} {s t : Script} {ks ls : List String} {w w' : String}

theorem shown_append (hs : Balanced o s) (t : Script) (count : Nat) :
    shown 0 (lexemes o count (s ++ t)) = shown 0 (lexemes o count s)
      ++ shown 0 (lexemes o (count + ((tokens s).filterMap (Token.value? o)).length) t) := by
  rw [lexemes_append, Text.shown_append (hs count)]

theorem shown_word (hw : BracketFree w) (count : Nat) :
    shown 0 (lexemes o count [.text w]) = w.toList := by
  rw [lexemes_text, shown_of_bracketFree hw]

theorem shown_enclosed (hw : Opens w) (h : Balanced o s) (w' : String) (count : Nat) :
    shown 0 (lexemes o count (.text w :: (s ++ [.text w']))) = frame w w' := by
  rw [← List.singleton_append, lexemes_append, lexemes_text, Text.shown_append hw, lexemes_append,
    Text.shown_append (h.depth?_eq _ 1), shown_succ_eq_nil (h _), List.nil_append, lexemes_text,
    frame]

/-- Of what shows of the script, `ks` are the words that begin clauses. -/
structure Shows (o : Options) (ks : List String) (s : Script) : Prop where
  balanced : Balanced o s
  clauses_shown : ∀ count, clauses (shown 0 (lexemes o count s)) = ks

/-- No word goes on into what shows of the script, so it can stand behind another one. -/
structure Shows.Tail (o : Options) (ks : List String) (s : Script) : Prop where
  shows : Shows o ks s
  separated : ∀ count, Separated (shown 0 (lexemes o count s))

namespace Shows

theorem append (hs : Shows o ks s) (ht : Tail o ls t) : Shows o (ks ++ ls) (s ++ t) := by
  refine ⟨hs.balanced.append ht.shows.balanced, fun count => ?_⟩
  rw [shown_append hs.balanced, clauses_append (ht.separated _), hs.clauses_shown,
    ht.shows.clauses_shown]

/-- What follows begins no clause. -/
theorem append_nil (hs : Shows o ks s) (ht : Tail o [] t) : Shows o ks (s ++ t) := by
  rw [← List.append_nil ks]
  exact hs.append ht

theorem cons {step : Step} (hs : Shows o [] [step]) (ht : Tail o ls t) :
    Shows o ls (step :: t) :=
  hs.append ht

theorem guarded (h : Shows o ks s) : Shows o ks [.guarded s] := by
  refine ⟨h.balanced.guarded, fun count => ?_⟩
  rw [lexemes_guarded]
  exact h.clauses_shown count

theorem nil : Shows o [] [] :=
  ⟨.nil, fun _ => rfl⟩

theorem word (hw : Brings ks w) : Shows o ks [.text w] := by
  refine ⟨.word hw.1, fun count => ?_⟩
  rw [shown_word hw.1]
  exact hw.2

theorem introduced (hw : Introduces ks w) (h : Shows o ls s) :
    Shows o (ks ++ ls) (.text w :: s) := by
  obtain ⟨⟨hfree, hks⟩, hended⟩ := hw
  refine ⟨.text hfree h.balanced, fun count => ?_⟩
  rw [← List.singleton_append, shown_append (.word hfree), shown_word hfree,
    clauses_append_of_ended hended, hks, h.clauses_shown]

theorem text (hw : Introduces [] w) (h : Shows o ks s) : Shows o ks (.text w :: s) :=
  introduced hw h

theorem clause {keyword : String} (hw : Introduces [keyword] w) (h : Shows o ks s) :
    Shows o (keyword :: ks) (.text w :: s) :=
  introduced hw h

theorem enclosed (hw : Encloses w w') (h : Balanced o s) :
    Shows o [] (.text w :: (s ++ [.text w'])) := by
  refine ⟨.enclosed hw.1 h hw.2.1, fun count => ?_⟩
  rw [shown_enclosed hw.1 h]
  exact hw.2.2

theorem custom (family : String) (n : Extension) : Shows o [] [.custom family n] :=
  ⟨.custom family n, fun _ => rfl⟩

theorem fail (e : RenderError) : Shows o [] [.fail e] :=
  ⟨.fail e, fun _ => rfl⟩

theorem literal {l : Literal} (h : (Site.literal l).Fixed) : Shows o [] [.literal l] := by
  have hquiet {w : String} (hw : BracketFree w) (hquiet : Quiet w) :
      clauses (shown 0 (w.toList.map .outside)) = [] := by
    rw [shown_of_bracketFree hw]
    exact hquiet.clauses_eq
  refine ⟨.literal (Site.Fixed.free h), fun count => ?_⟩
  rw [lexemes_literal, Token.found]
  cases o.paramsMode with
  | true =>
      exact hquiet (bracketFree_placeholder (count + 1))
        (forall_mem_placeholder (fun _ => isQuiet_of_isDigit) rfl (count + 1))
  | false =>
      cases l with
      | null => rfl
      | bool b => cases b <;> rfl
      | string s => rfl
      | integer n =>
          exact hquiet (numeric_int n).bracketFree
            (forall_mem_int (fun _ => isQuiet_of_isDigit) rfl n)
      | float x =>
          exact hquiet x.numeric_write.bracketFree
            (x.forall_mem_write (fun _ => isQuiet_of_isDigit) (show Quiet "-.NaNinf" by decide))
      | numeral text => exact h.elim

end Shows

namespace Shows.Tail

theorem nil : Tail o [] [] :=
  ⟨.nil, fun _ => rfl⟩

theorem append (hs : Tail o ks s) (ht : Tail o ls t) : Tail o (ks ++ ls) (s ++ t) := by
  refine ⟨hs.shows.append ht, fun count => ?_⟩
  rw [shown_append hs.shows.balanced]
  exact separated_append (hs.separated _) (ht.separated _)

theorem append_nil (hs : Tail o ks s) (ht : Tail o [] t) : Tail o ks (s ++ t) := by
  rw [← List.append_nil ks]
  exact hs.append ht

theorem ident (i : Ident) : Tail o [] [.ident i] :=
  ⟨⟨.ident i, fun _ => rfl⟩, fun _ => rfl⟩

theorem word (hw : Brings [] w) (hsep : Separated w.toList) : Tail o [] [.text w] := by
  refine ⟨.word hw, fun count => ?_⟩
  rw [shown_word hw.1]
  exact hsep

theorem parted (hw : Parts ks w) (h : Shows o ls s) : Tail o (ks ++ ls) (.text w :: s) := by
  obtain ⟨hintroduces, -, hsep, hne⟩ := hw
  have hfree : BracketFree w := hintroduces.1.1
  refine ⟨.introduced hintroduces h, fun count => ?_⟩
  rw [← List.singleton_append, shown_append (.word hfree), shown_word hfree]
  exact separated_append_of_ne_empty hsep hne _

theorem text (hw : Parts [] w) (h : Shows o ks s) : Tail o ks (.text w :: s) :=
  parted hw h

theorem clause {keyword : String} (hw : Parts [keyword] w) (h : Shows o ks s) :
    Tail o (keyword :: ks) (.text w :: s) :=
  parted hw h

theorem enclosed (hw : Encloses w w') (hsep : Separated (frame w w')) (h : Balanced o s) :
    Tail o [] (.text w :: (s ++ [.text w'])) := by
  refine ⟨.enclosed hw h, fun count => ?_⟩
  rw [shown_enclosed hw.1 h]
  exact hsep

theorem elim {α : Type} (x : Option α) {f : α → Script} (h : ∀ a, Tail o [] (f a)) :
    Tail o [] (x.elim [] f) := by
  cases x with
  | none => exact nil
  | some a => exact h a

theorem member (negated : Bool) (h : Balanced o s) :
    Tail o [] (.text (if negated then " NOT IN (" else " IN (") :: (s ++ [.text ")"])) := by
  cases negated <;> exact .enclosed (by decide) (by decide) h

end Shows.Tail

namespace Shows

theorem ident (i : Ident) : Shows o [] [.ident i] :=
  (Tail.ident i).shows

theorem intercalate (hw : Parts [] w) {parts : List Script} (h : ∀ s ∈ parts, Shows o [] s) :
    Shows o [] ([Step.text w].intercalate parts) := by
  induction parts with
  | nil => exact nil
  | cons s parts ih =>
      rw [List.forall_mem_cons] at h
      cases parts with
      | nil => exact h.1.append .nil
      | cons s' parts => exact h.1.append (.text hw (ih h.2))

theorem commas {parts : List Script} (h : ∀ s ∈ parts, Shows o [] s) :
    Shows o [] (Script.commas parts) :=
  intercalate (by decide) h

theorem chain (segments : List Ident) : Shows o [] (Script.chain segments) :=
  intercalate (by decide) (List.forall_mem_map.2 fun i _ => ident i)

theorem compound (segments : List Ident) : Shows o [] (Script.compound segments) := by
  rw [Script.compound]
  split
  · exact fail _
  · exact chain segments

end Shows

theorem Shows.Tail.columns (is : List Ident) : Shows.Tail o [] (Script.columns is) := by
  cases is with
  | nil => exact .nil
  | cons i is =>
      exact .text (by decide)
        (.enclosed (by decide) (.commas (List.forall_mem_map.2 fun i _ => .ident i)))

end Script

open Script

variable (o : Options)

theorem Extension.shows_slot (family : String) (ext : Option Extension) :
    Shows.Tail o [] (Extension.slot family ext) := by
  cases ext with
  | none => exact .nil
  | some n => exact .text (by decide) (.custom family n)

theorem Name.shows (name : Name) : Shows o [] name.script := by
  cases name with
  | simple i => exact .ident i
  | compound segments => exact .compound segments

theorem JoinKind.shows (kind : JoinKind) : Shows o [] kind.script := by
  cases kind with
  | custom node => exact .custom "JoinKind" node
  | _ => exact .word (by decide)

theorem BinaryOp.brings {op : BinaryOp} (h : ∀ site ∈ op.sites, site.Fixed) : Brings [] op.sql := by
  cases op with
  | custom text => exact (h _ (List.mem_singleton_self _)).elim
  | _ => decide

theorem UnaryOp.introduces {op : UnaryOp} (h : ∀ site ∈ op.sites, site.Fixed) :
    Introduces [] op.sql := by
  cases op with
  | custom text => exact (h _ (List.mem_singleton_self _)).elim
  | _ => decide

end TypedSql
