import TypedSql.Proofs.Quoting

/-! Brackets outside of quoted tokens. A reader keeps count of the brackets that are open. A script whose
brackets match leaves the count as it is, so inside of brackets it does not show. -/

namespace TypedSql

namespace Text

def isBracket (c : Char) : Bool :=
  c = '(' || c = ')'

/-- No character of the text is a bracket. -/
def BracketFree (s : String) : Prop :=
  ∀ c ∈ s.toList, isBracket c = false

instance (s : String) : Decidable (BracketFree s) :=
  List.decidableBAll (fun c => isBracket c = false) s.toList

/-- How many brackets are open behind a character. -/
def level (c : Char) (depth : Nat) : Nat :=
  if c = '(' then depth + 1 else if c = ')' then depth - 1 else depth

/-- How many brackets are open behind what a reader has found. There is no such number where a bracket
is closed that was not opened. -/
def depth? : (depth : Nat) → List Lexeme → Option Nat
  | depth, [] => some depth
  | depth, .quoted _ _ :: found => depth? depth found
  | depth, .outside c :: found =>
    if c = ')' ∧ depth = 0 then none else depth? (level c depth) found

/-- What is left of the text without its quoted tokens and without all that stands between matching
brackets. -/
def shown : (depth : Nat) → List Lexeme → List Char
  | _, [] => []
  | depth, .quoted _ _ :: found => shown depth found
  | depth, .outside c :: found =>
    if depth = 0 ∨ level c depth = 0 then c :: shown (level c depth) found
    else shown (level c depth) found

theorem level_of_not_isBracket {c : Char} (h : isBracket c = false) (depth : Nat) :
    level c depth = depth := by
  rw [isBracket, Bool.or_eq_false_iff, decide_eq_false_iff_not, decide_eq_false_iff_not] at h
  rw [level, if_neg h.1, if_neg h.2]

theorem level_add {c : Char} {depth : Nat} (h : ¬ (c = ')' ∧ depth = 0)) (k : Nat) :
    level c (depth + k) = level c depth + k := by
  rw [level, level]
  split
  · omega
  · split
    · rename_i hc
      have hpos : depth ≠ 0 := fun hzero => h ⟨hc, hzero⟩
      omega
    · rfl

theorem depth?_append (a b : List Lexeme) (depth : Nat) :
    depth? depth (a ++ b) = (depth? depth a).bind fun d => depth? d b := by
  induction a generalizing depth with
  | nil => rfl
  | cons lexeme a ih =>
      cases lexeme with
      | quoted quote contents => exact ih depth
      | outside c =>
          rw [List.cons_append, depth?, depth?]
          by_cases h : c = ')' ∧ depth = 0
          · rw [if_pos h, if_pos h]
            rfl
          · rw [if_neg h, if_neg h]
            exact ih _

theorem shown_append {a : List Lexeme} {depth d : Nat} (h : depth? depth a = some d)
    (b : List Lexeme) : shown depth (a ++ b) = shown depth a ++ shown d b := by
  induction a generalizing depth with
  | nil =>
      cases h
      rfl
  | cons lexeme a ih =>
      cases lexeme with
      | quoted quote contents => exact ih h
      | outside c =>
          rw [depth?] at h
          by_cases hclose : c = ')' ∧ depth = 0
          · rw [if_pos hclose] at h
            cases h
          · rw [if_neg hclose] at h
            rw [List.cons_append, shown, shown, ih h]
            split <;> rfl

/-- More brackets that are open all the time change nothing. -/
theorem depth?_add {found : List Lexeme} {depth d : Nat} (h : depth? depth found = some d)
    (k : Nat) : depth? (depth + k) found = some (d + k) := by
  induction found generalizing depth with
  | nil =>
      cases h
      rfl
  | cons lexeme found ih =>
      cases lexeme with
      | quoted quote contents => exact ih h
      | outside c =>
          rw [depth?] at h
          by_cases hclose : c = ')' ∧ depth = 0
          · rw [if_pos hclose] at h
            cases h
          · rw [if_neg hclose] at h
            have hopen : ¬ (c = ')' ∧ depth + k = 0) := fun hk => hclose ⟨hk.1, by omega⟩
            rw [depth?, if_neg hopen, level_add hclose]
            exact ih h

/-- Inside of one more bracket nothing shows. -/
theorem shown_succ_eq_nil {found : List Lexeme} {depth d : Nat} (h : depth? depth found = some d) :
    shown (depth + 1) found = [] := by
  induction found generalizing depth with
  | nil => rfl
  | cons lexeme found ih =>
      cases lexeme with
      | quoted quote contents => exact ih h
      | outside c =>
          rw [depth?] at h
          by_cases hclose : c = ')' ∧ depth = 0
          · rw [if_pos hclose] at h
            cases h
          · rw [if_neg hclose] at h
            have hinside : ¬ (depth + 1 = 0 ∨ level c depth + 1 = 0) := by omega
            rw [shown, level_add hclose, if_neg hinside]
            exact ih h

theorem depth?_of_bracketFree {s : String} (h : BracketFree s) (depth : Nat) :
    depth? depth (s.toList.map .outside) = some depth := by
  rw [BracketFree] at h
  generalize s.toList = cs at h ⊢
  induction cs with
  | nil => rfl
  | cons c cs ih =>
      rw [List.forall_mem_cons] at h
      have hclose : ¬ (c = ')' ∧ depth = 0) := by
        rintro ⟨rfl, -⟩
        cases h.1
      rw [List.map_cons, depth?, if_neg hclose, level_of_not_isBracket h.1]
      exact ih h.2

theorem shown_of_bracketFree {s : String} (h : BracketFree s) :
    shown 0 (s.toList.map .outside) = s.toList := by
  rw [BracketFree] at h
  generalize s.toList = cs at h ⊢
  induction cs with
  | nil => rfl
  | cons c cs ih =>
      rw [List.forall_mem_cons] at h
      rw [List.map_cons, shown, level_of_not_isBracket h.1, if_pos (.inl rfl), ih h.2]

/-- A fixed text behind which one more bracket is open. -/
def Opens (s : String) : Prop :=
  depth? 0 (s.toList.map .outside) = some 1

instance (s : String) : Decidable (Opens s) :=
  inferInstanceAs (Decidable (depth? 0 (s.toList.map .outside) = some 1))

/-- A fixed text that closes the last bracket. -/
def Closes (s : String) : Prop :=
  depth? 1 (s.toList.map .outside) = some 0

instance (s : String) : Decidable (Closes s) :=
  inferInstanceAs (Decidable (depth? 1 (s.toList.map .outside) = some 0))

theorem isBracket_of_isNumeric {c : Char} (h : isNumeric c = true) : isBracket c = false := by
  have hopen : c ≠ '(' := by rintro rfl; exact absurd h (by decide)
  have hclose : c ≠ ')' := by rintro rfl; exact absurd h (by decide)
  simp [isBracket, hopen, hclose]

theorem Numeric.bracketFree {s : String} (h : Numeric s) : BracketFree s :=
  fun c hc => isBracket_of_isNumeric (h c hc)

theorem bracketFree_append {s t : String} (hs : BracketFree s) (ht : BracketFree t) :
    BracketFree (s ++ t) :=
  forall_mem_append hs ht

theorem bracketFree_placeholder (index : Nat) : BracketFree (Piece.placeholder index).text :=
  forall_mem_placeholder (fun _ hc => isBracket_of_isNumeric (isNumeric_of_isDigit hc)) rfl index

end Text

open Text

namespace Site

/-- The text that a site brings as it is, an operator or a numeral, has the property. -/
def Free (p : String → Prop) : Site → Prop
  | operator text => p text
  | literal (.numeral text) => p text
  | _ => True

theorem forall_free_nest {p : String → Prop} {inside : List Site} :
    (∀ site ∈ nest inside, site.Free p) ↔ ∀ site ∈ inside, site.Free p := by
  have hsink (site : Site) : (site.sink 1).Free p ↔ site.Free p := by
    cases site <;> exact Iff.rfl
  rw [nest, List.forall_mem_cons, List.forall_mem_map]
  simp only [hsink]
  exact ⟨fun h => h.2, fun h => ⟨trivial, h⟩⟩

end Site

namespace Script

/-- What a reader finds of a script, where `count` values are bound before it. -/
def lexemes (o : Options) (count : Nat) (s : Script) : List Lexeme :=
  Token.lexemes o count (tokens s)

variable {o : Options} {s t : Script}

theorem lexemes_append (o : Options) (count : Nat) (s t : Script) : lexemes o count (s ++ t) =
    lexemes o count s
      ++ lexemes o (count + ((tokens s).filterMap (Token.value? o)).length) t := by
  rw [lexemes, tokens_append, Token.lexemes_append, lexemes, lexemes]

theorem lexemes_text (o : Options) (count : Nat) (w : String) :
    lexemes o count [.text w] = w.toList.map .outside :=
  List.append_nil _

theorem lexemes_literal (o : Options) (count : Nat) (l : Literal) :
    lexemes o count [.literal l] = (Token.literal l).found o count :=
  List.append_nil _

theorem lexemes_guarded (o : Options) (count : Nat) (body : Script) :
    lexemes o count [.guarded body] = lexemes o count body := by
  rw [lexemes, tokens, Step.tokens, tokens, List.append_nil, lexemes]

/-- The brackets of the script match inside of it. -/
def Balanced (o : Options) (s : Script) : Prop :=
  ∀ count, depth? 0 (lexemes o count s) = some 0

namespace Balanced

theorem depth?_eq (h : Balanced o s) (count depth : Nat) :
    depth? depth (lexemes o count s) = some depth := by
  have hdepth := depth?_add (h count) depth
  rwa [Nat.zero_add] at hdepth

theorem nil : Balanced o [] := fun _ => rfl

theorem append (hs : Balanced o s) (ht : Balanced o t) : Balanced o (s ++ t) := by
  intro count
  rw [lexemes_append, depth?_append, hs count]
  exact ht _

theorem guarded (h : Balanced o s) : Balanced o [.guarded s] := by
  intro count
  rw [lexemes_guarded]
  exact h count

theorem word {w : String} (hw : BracketFree w) : Balanced o [.text w] := by
  intro count
  rw [lexemes_text]
  exact depth?_of_bracketFree hw 0

theorem text {w : String} (hw : BracketFree w) (h : Balanced o t) : Balanced o (.text w :: t) :=
  (word hw).append h

theorem ident (i : Ident) : Balanced o [.ident i] := fun _ => rfl

theorem custom (family : String) (n : Extension) : Balanced o [.custom family n] := fun _ => rfl

theorem fail (e : RenderError) : Balanced o [.fail e] := fun _ => rfl

theorem literal {l : Literal} (h : (Site.literal l).Free BracketFree) : Balanced o [.literal l] := by
  have hword {w : String} (hw : BracketFree w) : depth? 0 (w.toList.map .outside) = some 0 :=
    depth?_of_bracketFree hw 0
  intro count
  rw [lexemes_literal, Token.found]
  cases o.paramsMode with
  | true => exact hword (bracketFree_placeholder (count + 1))
  | false =>
      cases l with
      | null => rfl
      | bool b => cases b <;> rfl
      | string s => rfl
      | integer n => exact hword (numeric_int n).bracketFree
      | float x => exact hword x.numeric_write.bracketFree
      | numeral text => exact hword h

/-- Between a text that opens a bracket and one that closes it. -/
theorem enclosed {w w' : String} (hw : Opens w) (h : Balanced o s) (hw' : Closes w') :
    Balanced o (.text w :: (s ++ [.text w'])) := by
  intro count
  rw [← List.singleton_append, lexemes_append, lexemes_text, depth?_append, hw, Option.bind_some, lexemes_append,
    depth?_append, h.depth?_eq, Option.bind_some, lexemes_text]
  exact hw'

theorem elim {α : Type} (x : Option α) {f : α → Script} (h : ∀ a, Balanced o (f a)) :
    Balanced o (x.elim [] f) := by
  cases x with
  | none => exact nil
  | some a => exact h a

theorem intercalate {w : String} (hw : BracketFree w) {parts : List Script}
    (h : ∀ s ∈ parts, Balanced o s) : Balanced o ([Step.text w].intercalate parts) := by
  induction parts with
  | nil => exact nil
  | cons s parts ih =>
      rw [List.forall_mem_cons] at h
      cases parts with
      | nil => exact h.1.append nil
      | cons s' parts => exact h.1.append (text hw (ih h.2))

theorem commas {parts : List Script} (h : ∀ s ∈ parts, Balanced o s) :
    Balanced o (Script.commas parts) :=
  intercalate (by decide) h

theorem chain (segments : List Ident) : Balanced o (Script.chain segments) :=
  intercalate (by decide) (List.forall_mem_map.2 fun i _ => ident i)

theorem idents (is : List Ident) : Balanced o (Script.idents is) :=
  enclosed (by decide) (commas (List.forall_mem_map.2 fun i _ => ident i)) (by decide)

theorem columns (is : List Ident) : Balanced o (Script.columns is) := by
  cases is with
  | nil => exact nil
  | cons i is => exact text (by decide) (idents (i :: is))

theorem compound (segments : List Ident) : Balanced o (Script.compound segments) := by
  rw [Script.compound]
  split
  · exact fail _
  · exact chain segments

/-- In brackets of its own. -/
theorem bracketed {w : String} (hw : BracketFree w) : Balanced o [.text ("(" ++ w ++ ")")] := by
  intro count
  have hinside : depth? 1 (w.toList.map .outside) = some 1 := depth?_of_bracketFree hw 1
  rw [lexemes_text, String.toList_append, String.toList_append, List.map_append, List.map_append,
    depth?_append, depth?_append, show depth? 0 ("(".toList.map .outside) = some 1 from rfl,
    Option.bind_some, hinside]
  rfl

theorem precision (p : Option Nat) : Balanced o (Script.precision p) := by
  cases p with
  | none => exact nil
  | some p => exact bracketed (numeric_repr p).bracketFree

end Balanced

end Script

open Script

variable (o : Options)

theorem Name.balanced (name : Name) : Balanced o name.script := by
  cases name with
  | simple i => exact .ident i
  | compound segments => exact .compound segments

theorem Extension.balanced_slot (family : String) (ext : Option Extension) :
    Balanced o (Extension.slot family ext) := by
  cases ext with
  | none => exact .nil
  | some n => exact .text (by decide) (.custom family n)

theorem DataType.balanced_scaled (keyword : String) (p s : Option Nat)
    (hk : BracketFree keyword) : Balanced o (scaled keyword p s) := by
  cases s with
  | none =>
      cases p with
      | none => exact .word hk
      | some p => exact .text hk (.precision (some p))
  | some s =>
      cases p with
      | none => exact .text hk (.fail _)
      | some p =>
          have hs : s!"({p}, {s})" = "(" ++ (toString p ++ ", " ++ toString s) ++ ")" := by
            simp only [← String.append_assoc]
            rfl
          have hinside : BracketFree (toString p ++ ", " ++ toString s) :=
            bracketFree_append (bracketFree_append (numeric_repr p).bracketFree (by decide))
              (numeric_repr s).bracketFree
          rw [scaled, hs]
          exact .text hk (.bracketed hinside)

theorem DataType.balanced (t : DataType) : Balanced o t.script := by
  have hlength (w : String) (p : Option Nat) (hw : BracketFree w) :
      Balanced o (.text w :: Script.precision p) := .text hw (.precision p)
  have hzoned (w : String) (p : Option Nat) (z : Bool) (hw : BracketFree w) :
      Balanced o (.text w :: (Script.precision p ++ zone z)) := by
    have hzone : Balanced o (zone z) := by
      cases z with
      | false => exact .nil
      | true => exact .word (by decide)
    exact .text hw ((Balanced.precision p).append hzone)
  cases t with
  | char p => exact hlength _ p (by decide)
  | varchar p => exact hlength _ p (by decide)
  | numeric p s => exact balanced_scaled o _ p s (by decide)
  | decimal p s => exact balanced_scaled o _ p s (by decide)
  | float p => exact hlength _ p (by decide)
  | time p z => exact hzoned _ p z (by decide)
  | timestamp p z => exact hzoned _ p z (by decide)
  | custom node => exact .custom "DataType" node
  | _ => exact .word (by decide)

theorem JoinKind.balanced (kind : JoinKind) : Balanced o kind.script := by
  cases kind with
  | custom node => exact .custom "JoinKind" node
  | _ => exact .word (by decide)

theorem BinaryOp.bracketFree {op : BinaryOp} (h : ∀ site ∈ op.sites, site.Free BracketFree) :
    BracketFree op.sql := by
  cases op with
  | custom text => exact h _ (List.mem_singleton_self _)
  | _ => decide

theorem UnaryOp.bracketFree {op : UnaryOp} (h : ∀ site ∈ op.sites, site.Free BracketFree) :
    BracketFree op.sql := by
  cases op with
  | custom text => exact h _ (List.mem_singleton_self _)
  | _ => decide

end TypedSql
