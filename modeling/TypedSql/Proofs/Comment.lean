import TypedSql.Proofs.Balance

/-! Comments. Two dashes, or a slash and a star, open a comment where they stand outside of quoted tokens.
Of the fixed texts only two operators have a dash or a slash, and a space follows them where they stand
between operands. So the scripts of a tree can be joined without a comment in between: no part ends in
the first half of a mark. Only a sign before an operand has to look at what follows it. -/

namespace TypedSql

namespace Text

/-- What opens a comment. -/
inductive CommentMark where
  /-- Two dashes: the rest of the line is a comment. -/
  | line
  /-- A slash and a star: all that follows is a comment until it is closed. -/
  | block
  deriving DecidableEq

namespace CommentMark

def first : CommentMark → Char
  | line => '-'
  | block => '/'

def second : CommentMark → Char
  | line => '-'
  | block => '*'

/-- The mark stands outside of all tokens in what a reader has found. -/
def Stands (mark : CommentMark) (found : List Lexeme) : Prop :=
  [.outside mark.first, .outside mark.second] <:+: found

variable {mark : CommentMark}

theorem stands_cons {lexeme : Lexeme} {found : List Lexeme} :
    mark.Stands (lexeme :: found) ↔
      lexeme = .outside mark.first ∧ found.head? = some (.outside mark.second) ∨
        mark.Stands found := by
  rw [Stands, List.infix_cons_iff, List.cons_prefix_cons, Stands, eq_comm (a := lexeme)]
  cases found with
  | nil => simp
  | cons next found =>
      rw [List.head?_cons, Option.some_inj, List.cons_prefix_cons, eq_comm (a := next),
        and_iff_left List.nil_prefix]

/-- Only where the first half of the mark is found can the mark stand. -/
theorem not_stands {found : List Lexeme} (h : .outside mark.first ∉ found) : ¬ mark.Stands found :=
  fun hstands => h (hstands.subset List.mem_cons_self)

instance : (found : List Lexeme) → Decidable (mark.Stands found)
  | [] => .isFalse (not_stands List.not_mem_nil)
  | _ :: found =>
    have := instDecidableStands found
    decidable_of_iff _ stands_cons.symm

/-- In a joined text the mark stands in one of the parts, or one half of it in each. -/
theorem stands_append {a b : List Lexeme} : mark.Stands (a ++ b) ↔
    mark.Stands a ∨ mark.Stands b ∨
      a.getLast? = some (.outside mark.first) ∧ b.head? = some (.outside mark.second) := by
  have hnil : ¬ mark.Stands [] := not_stands List.not_mem_nil
  induction a with
  | nil => simp [hnil]
  | cons lexeme a ih =>
      rw [List.cons_append, stands_cons, stands_cons]
      refine (or_congr_right ih).trans ?_
      cases a with
      | nil =>
          rw [List.nil_append, List.head?_nil, List.getLast?_singleton, Option.some_inj]
          simp only [hnil, List.getLast?_nil, reduceCtorEq, and_false, false_and, or_false, false_or]
          exact or_comm
      | cons next a =>
          rw [List.cons_append, List.head?_cons, List.head?_cons, List.getLast?_cons_cons, or_assoc]

/-- The mark does not stand in what was found, nor can what follows complete it. -/
structure Clear (mark : CommentMark) (found : List Lexeme) : Prop where
  stands : ¬ mark.Stands found
  ends : found.getLast? ≠ some (.outside mark.first)

namespace Clear

theorem of_not_mem {found : List Lexeme} (h : .outside mark.first ∉ found) : mark.Clear found where
  stands := not_stands h
  ends hlast := h (List.mem_of_getLast? hlast)

theorem append {a b : List Lexeme} (ha : mark.Clear a) (hb : mark.Clear b) :
    mark.Clear (a ++ b) where
  stands := by
    rw [stands_append]
    rintro (h | h | h)
    · exact ha.stands h
    · exact hb.stands h
    · exact ha.ends h.1
  ends := by
    rw [List.getLast?_append]
    cases hlast : b.getLast? with
    | none => exact ha.ends
    | some lexeme =>
        rw [Option.some_or, ← hlast]
        exact hb.ends

/-- A character can stand before what is clear, unless the two make the mark. -/
theorem cons {c : Char} {found : List Lexeme} (h : mark.Clear found) (hne : found ≠ [])
    (hhead : c = mark.first → found.head? ≠ some (.outside mark.second)) :
    mark.Clear (.outside c :: found) where
  stands := by
    rw [stands_cons]
    rintro (⟨hc, hfound⟩ | hfound)
    · exact hhead (Lexeme.outside.inj hc) hfound
    · exact h.stands hfound
  ends := by
    obtain ⟨next, rest, rfl⟩ := List.exists_cons_of_ne_nil hne
    rw [List.getLast?_cons_cons]
    exact h.ends

end Clear

end CommentMark

/-- Whether a comment can begin with the character. -/
def isSign (c : Char) : Bool :=
  c = '-' || c = '/'

/-- No character of the text begins a comment. -/
def Calm (s : String) : Prop :=
  ∀ c ∈ s.toList, isSign c = false

instance (s : String) : Decidable (Calm s) :=
  List.decidableBAll (fun c => isSign c = false) s.toList

theorem Calm.not_mem {s : String} (h : Calm s) (mark : CommentMark) : mark.first ∉ s.toList := by
  intro hmem
  have hsign := h _ hmem
  cases mark <;> cases hsign

theorem calm_append {s t : String} (hs : Calm s) (ht : Calm t) : Calm (s ++ t) :=
  forall_mem_append hs ht

theorem isSign_of_isDigit {c : Char} (h : c.isDigit = true) : isSign c = false := by
  have hdash : c ≠ '-' := by rintro rfl; cases h
  have hslash : c ≠ '/' := by rintro rfl; cases h
  simp [isSign, hdash, hslash]

theorem calm_repr (n : Nat) : Calm (toString n) :=
  forall_mem_repr (fun _ => isSign_of_isDigit) n

theorem calm_placeholder (index : Nat) : Calm (Piece.placeholder index).text :=
  forall_mem_placeholder (fun _ => isSign_of_isDigit) rfl index

end Text

open Text

/-! ### Numbers -/

namespace Decimal

variable (d : Decimal)

theorem text_ne_nil : d.text ≠ [] :=
  Nat.toDigits_ne_nil

theorem calm_positional : Calm (d.positional false) :=
  d.forall_mem_positional (fun _ => isSign_of_isDigit) rfl

theorem positional_ne_nil : (d.positional false).toList ≠ [] := by
  rw [positional]
  split
  · simp [d.text_ne_nil]
  · split <;> simp

end Decimal

/-- Whether a number is written with a minus sign. -/
def Literal.isMinus : Literal → Bool
  | integer n => n < 0
  | float x => x.isNegative && !x.isNaN
  | numeral text => text.toList.head? = some '-'
  | _ => false

namespace Literal

/-- A number is written as a text that begins no comment, behind a minus sign where it has one. -/
theorem sql_signed {l : Literal} (hstring : ∀ s, l ≠ string s) (hnumeral : ∀ s, l ≠ numeral s) :
    ∃ w, Calm w ∧ w.toList ≠ [] ∧
      (l.sql .standard).toList = if l.isMinus then '-' :: w.toList else w.toList := by
  cases l with
  | null => exact ⟨"NULL", by decide, by decide, rfl⟩
  | bool b =>
      cases b with
      | false => exact ⟨"FALSE", by decide, by decide, rfl⟩
      | true => exact ⟨"TRUE", by decide, by decide, rfl⟩
  | string s => exact absurd rfl (hstring s)
  | integer n =>
      have hdigits (k : Nat) : (toString k).toList ≠ [] := by
        rw [Nat.toString_eq_repr, Nat.toList_repr]
        exact Nat.toDigits_ne_nil
      cases n with
      | ofNat k =>
          have hsign : ¬ (integer (.ofNat k)).isMinus = true := by simp [isMinus]
          exact ⟨toString k, calm_repr k, hdigits k, (if_neg hsign).symm⟩
      | negSucc k =>
          have hsign : (integer (.negSucc k)).isMinus = true := by simp [isMinus]
          exact ⟨toString (k + 1), calm_repr (k + 1), hdigits (k + 1),
            String.toList_append.trans (if_pos hsign).symm⟩
  | float x =>
      rw [sql, Double.write, isMinus]
      cases hnan : x.isNaN with
      | true => exact ⟨"NaN", by decide, by decide, by simp⟩
      | false =>
          refine ⟨if x.isFinite then (x.shortest .up).positional false else "inf", ?_, ?_, ?_⟩
          · split
            · exact Decimal.calm_positional _
            · decide
          · split
            · exact Decimal.positional_ne_nil _
            · decide
          · cases x.isNegative <;> simp [Decimal.write, NumberFormat.sql]
  | numeral text => exact absurd rfl (hnumeral text)

theorem lexemes_of_ne {l : Literal} (h : ∀ s, l ≠ string s) :
    l.lexemes = (l.sql .standard).toList.map .outside := by
  cases l with
  | string s => exact absurd rfl (h s)
  | _ => rfl

end Literal

namespace Script

theorem lexemes_cons (o : Options) (count : Nat) (w : String) (t : Script) :
    lexemes o count (.text w :: t) = w.toList.map .outside ++ lexemes o count t := by
  rw [← List.singleton_append, lexemes_append, lexemes_text]
  rfl

/-- Neither does the mark stand in the script, nor can what is written behind it complete one. -/
def Inert (o : Options) (mark : CommentMark) (s : Script) : Prop :=
  ∀ count, mark.Clear (lexemes o count s)

namespace Inert

variable {o : Options} {mark : CommentMark} {s t : Script}

theorem nil : Inert o mark [] := fun _ => .of_not_mem List.not_mem_nil

theorem append (hs : Inert o mark s) (ht : Inert o mark t) : Inert o mark (s ++ t) := by
  intro count
  rw [lexemes_append]
  exact (hs count).append (ht _)

theorem guarded (h : Inert o mark s) : Inert o mark [.guarded s] := by
  intro count
  rw [lexemes_guarded]
  exact h count

theorem word {w : String} (hw : mark.first ∉ w.toList) : Inert o mark [.text w] := by
  intro count
  rw [lexemes_text]
  refine .of_not_mem ?_
  rw [List.mem_map]
  rintro ⟨c, hc, he⟩
  cases he
  exact hw hc

theorem text {w : String} (hw : Calm w) (h : Inert o mark t) : Inert o mark (.text w :: t) :=
  (word (hw.not_mem mark)).append h

theorem ident (i : Ident) : Inert o mark [.ident i] :=
  fun _ => .of_not_mem (by simp [lexemes, Script.tokens, Step.tokens, Token.lexemes, Token.found])

theorem custom (family : String) (n : Extension) : Inert o mark [.custom family n] :=
  fun _ => .of_not_mem List.not_mem_nil

theorem fail (e : RenderError) : Inert o mark [.fail e] :=
  fun _ => .of_not_mem List.not_mem_nil

/-- A sign before what is inert, where the two do not make the mark. -/
theorem sign {w : String} {c : Char} (hw : w.toList = [c]) (h : Inert o mark t)
    (hne : ∀ count, lexemes o count t ≠ [])
    (hhead : ∀ count, c = mark.first → (lexemes o count t).head? ≠ some (.outside mark.second)) :
    Inert o mark (.text w :: t) := by
  intro count
  rw [lexemes_cons, hw]
  exact (h count).cons (hne count) (hhead count)

theorem literal {l : Literal} (h : (Site.literal l).Free fun _ => False) :
    Inert o mark [.literal l] := by
  have hcalm {w : String} (hw : Calm w) : mark.Clear (w.toList.map .outside) := by
    have hword := word (o := o) (hw.not_mem mark) 0
    rwa [lexemes_text] at hword
  intro count
  rw [lexemes_literal, Token.found]
  cases o.paramsMode with
  | true => exact hcalm (calm_placeholder (count + 1))
  | false =>
      by_cases hstring : ∃ s, l = .string s
      · obtain ⟨s, rfl⟩ := hstring
        exact .of_not_mem (by simp [Literal.lexemes])
      · have hnumeral : ∀ s, l ≠ .numeral s := by
          rintro s rfl
          exact h
        obtain ⟨w, hw, hne, hsql⟩ :=
          Literal.sql_signed (fun s hs => hstring ⟨s, hs⟩) hnumeral
        rw [if_neg Bool.false_ne_true, Literal.lexemes_of_ne (fun s hs => hstring ⟨s, hs⟩), hsql]
        split
        · refine (hcalm hw).cons (by simpa using hne) ?_
          intro hfirst hhead
          obtain rfl : mark = .line := by cases mark <;> first | rfl | cases hfirst
          rw [List.head?_map, Option.map_eq_some_iff] at hhead
          obtain ⟨c, hc, he⟩ := hhead
          cases he
          exact absurd (hw _ (List.mem_of_head? hc)) (by decide)
        · exact hcalm hw

theorem elim {α : Type} (x : Option α) {f : α → Script} (h : ∀ a, Inert o mark (f a)) :
    Inert o mark (x.elim [] f) := by
  cases x with
  | none => exact nil
  | some a => exact h a

theorem intercalate {w : String} (hw : Calm w) {parts : List Script}
    (h : ∀ s ∈ parts, Inert o mark s) : Inert o mark ([Step.text w].intercalate parts) := by
  induction parts with
  | nil => exact nil
  | cons s parts ih =>
      rw [List.forall_mem_cons] at h
      cases parts with
      | nil => exact h.1.append nil
      | cons s' parts => exact h.1.append (text hw (ih h.2))

theorem commas {parts : List Script} (h : ∀ s ∈ parts, Inert o mark s) :
    Inert o mark (Script.commas parts) :=
  intercalate (by decide) h

theorem chain (segments : List Ident) : Inert o mark (Script.chain segments) :=
  intercalate (by decide) (List.forall_mem_map.2 fun i _ => ident i)

/-- Between two texts that begin no comment. -/
theorem enclosed {w w' : String} (hw : Calm w) (h : Inert o mark s) (hw' : Calm w') :
    Inert o mark (.text w :: (s ++ [.text w'])) :=
  text hw (h.append (word (hw'.not_mem mark)))

theorem columns (is : List Ident) : Inert o mark (Script.columns is) := by
  cases is with
  | nil => exact nil
  | cons i is =>
      exact text (by decide)
        (enclosed (by decide) (commas (List.forall_mem_map.2 fun i _ => ident i)) (by decide))

theorem compound (segments : List Ident) : Inert o mark (Script.compound segments) := by
  rw [Script.compound]
  split
  · exact fail _
  · exact chain segments

theorem precision (p : Option Nat) : Inert o mark (Script.precision p) := by
  cases p with
  | none => exact nil
  | some p =>
      have hcalm : Calm ("(" ++ toString p ++ ")") :=
        calm_append (calm_append (by decide) (calm_repr p)) (by decide)
      exact word (hcalm.not_mem mark)

end Inert

end Script

open Script

variable {o : Options} {mark : CommentMark}

theorem Name.inert (name : Name) : Inert o mark name.script := by
  cases name with
  | simple i => exact .ident i
  | compound segments => exact .compound segments

theorem Extension.inert_slot (family : String) (ext : Option Extension) :
    Inert o mark (Extension.slot family ext) := by
  cases ext with
  | none => exact .nil
  | some n => exact .text (by decide) (.custom family n)

theorem DataType.inert_scaled (keyword : String) (p s : Option Nat) (hk : Calm keyword) :
    Inert o mark (scaled keyword p s) := by
  cases s with
  | none =>
      cases p with
      | none => exact .word (hk.not_mem mark)
      | some p => exact .text hk (.precision (some p))
  | some s =>
      cases p with
      | none => exact .text hk (.fail _)
      | some p =>
          have hcalm : Calm s!"({p}, {s})" :=
            calm_append (calm_append (calm_append (calm_append (by decide) (calm_repr p))
              (by decide)) (calm_repr s)) (by decide)
          exact .text hk (.word (hcalm.not_mem mark))

theorem DataType.inert (t : DataType) : Inert o mark t.script := by
  have hlength (w : String) (p : Option Nat) (hw : Calm w) :
      Inert o mark (.text w :: Script.precision p) := .text hw (.precision p)
  have hzoned (w : String) (p : Option Nat) (z : Bool) (hw : Calm w) :
      Inert o mark (.text w :: (Script.precision p ++ zone z)) := by
    have hzone : Inert o mark (zone z) := by
      cases z with
      | false => exact .nil
      | true => exact .text (by decide) .nil
    exact .text hw ((Inert.precision p).append hzone)
  cases t with
  | char p => exact hlength _ p (by decide)
  | varchar p => exact hlength _ p (by decide)
  | numeric p s => exact inert_scaled _ p s (by decide)
  | decimal p s => exact inert_scaled _ p s (by decide)
  | float p => exact hlength _ p (by decide)
  | time p z => exact hzoned _ p z (by decide)
  | timestamp p z => exact hzoned _ p z (by decide)
  | custom node => exact .custom "DataType" node
  | _ => exact .text (by decide) .nil

theorem JoinKind.inert (kind : JoinKind) : Inert o mark kind.script := by
  cases kind with
  | custom node => exact .custom "JoinKind" node
  | _ => exact .text (by decide) .nil

/-- An operator between operands, with the space that follows it. -/
theorem BinaryOp.inert {op : BinaryOp} (h : ∀ site ∈ op.sites, site.Free fun _ => False)
    {t : Script} (ht : Inert o mark t) : Inert o mark (.text op.sql :: .text " " :: t) := by
  have hspace : Inert o mark (.text " " :: t) := .text (by decide) ht
  have hsign {w : String} {c : Char} (hw : w.toList = [c]) :
      Inert o mark (.text w :: .text " " :: t) := by
    have hlexemes (count : Nat) :
        lexemes o count (.text " " :: t) = .outside ' ' :: lexemes o count t :=
      lexemes_cons o count " " t
    refine .sign hw hspace ?_ ?_
    · intro count
      rw [hlexemes]
      exact List.cons_ne_nil _ _
    · intro count _
      rw [hlexemes, List.head?_cons]
      cases mark <;> decide
  cases op with
  | custom text => exact (h _ (List.mem_singleton_self _)).elim
  | sub => exact hsign rfl
  | div => exact hsign rfl
  | _ => exact .text (by decide) hspace

end TypedSql
