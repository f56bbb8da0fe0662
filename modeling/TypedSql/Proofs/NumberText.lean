import TypedSql.Proofs.Layout

/-! The characters of written numbers. -/

namespace TypedSql

namespace Text

/-- Characters that stand in written numbers: digits, the point, the sign, and the letters of what is
not finite. -/
def isNumeric (c : Char) : Bool :=
  c.isAlphanum || c = '.' || c = '-'

/-- All characters of the text stand in written numbers. -/
def Numeric (s : String) : Prop :=
  ∀ c ∈ s.toList, isNumeric c = true

instance (s : String) : Decidable (Numeric s) :=
  List.decidableBAll (fun c => isNumeric c = true) s.toList

theorem isNumeric_of_isDigit {c : Char} (h : c.isDigit = true) : isNumeric c = true := by
  rw [isNumeric, Char.isAlphanum, h, Bool.or_true]
  rfl

theorem isMark_of_isNumeric {c : Char} (h : isNumeric c = true) : isMark c = false := by
  have hq : c ≠ '"' := by rintro rfl; exact absurd h (by decide)
  have hs : c ≠ '\'' := by rintro rfl; exact absurd h (by decide)
  have hd : c ≠ '$' := by rintro rfl; exact absurd h (by decide)
  simp [isMark, hq, hs, hd]

theorem Numeric.plain {s : String} (h : Numeric s) : Plain s :=
  fun c hc => isMark_of_isNumeric (h c hc)

section

variable {p : Char → Prop}

theorem forall_mem_append {s t : String} (hs : ∀ c ∈ s.toList, p c) (ht : ∀ c ∈ t.toList, p c) :
    ∀ c ∈ (s ++ t).toList, p c := by
  rw [String.toList_append, List.forall_mem_append]
  exact ⟨hs, ht⟩

theorem forall_mem_ofList {cs : List Char} (h : ∀ c ∈ cs, p c) :
    ∀ c ∈ (String.ofList cs).toList, p c := by
  rw [String.toList_ofList]
  exact h

/-- What holds of digits holds of all characters of a natural number. -/
theorem forall_mem_repr (hdigit : ∀ c, c.isDigit = true → p c) (n : Nat) :
    ∀ c ∈ (toString n).toList, p c := by
  intro c hc
  rw [Nat.toString_eq_repr, Nat.toList_repr] at hc
  exact hdigit c (Nat.isDigit_of_mem_toDigits (by decide) (by decide) hc)

theorem forall_mem_int (hdigit : ∀ c, c.isDigit = true → p c) (hsign : p '-') (n : Int) :
    ∀ c ∈ (toString n).toList, p c := by
  cases n with
  | ofNat n => exact forall_mem_repr hdigit n
  | negSucc n =>
      exact forall_mem_append (s := "-") (List.forall_mem_singleton.2 hsign)
        (forall_mem_repr hdigit (n + 1))

end

theorem numeric_repr (n : Nat) : Numeric (toString n) :=
  forall_mem_repr (fun _ => isNumeric_of_isDigit) n

theorem numeric_int (n : Int) : Numeric (toString n) :=
  forall_mem_int (fun _ => isNumeric_of_isDigit) rfl n

end Text

open Text

variable {p : Char → Prop}

namespace Decimal

variable (d : Decimal)

theorem forall_mem_text (hdigit : ∀ c, c.isDigit = true → p c) : ∀ c ∈ d.text, p c :=
  fun c hc => hdigit c (Nat.isDigit_of_mem_toDigits (by decide) (by decide) hc)

/-- A decimal without an exponent is written with digits and a point. -/
theorem forall_mem_positional (hdigit : ∀ c, c.isDigit = true → p c) (hpoint : p '.') :
    ∀ c ∈ (d.positional false).toList, p c := by
  have htext := d.forall_mem_text hdigit
  have hzeros (n : Nat) : ∀ c ∈ List.replicate n '0', p c := by
    intro c hc
    rw [List.eq_of_mem_replicate hc]
    exact hdigit _ rfl
  rw [positional]
  split
  · exact forall_mem_append (t := "")
      (forall_mem_ofList (List.forall_mem_append.2 ⟨htext, hzeros _⟩)) nofun
  · split
    · apply forall_mem_ofList
      rw [List.forall_mem_append, List.forall_mem_cons]
      exact ⟨fun c hc => htext c (List.mem_of_mem_take hc), hpoint,
        fun c hc => htext c (List.mem_of_mem_drop hc)⟩
    · apply forall_mem_ofList
      rw [List.forall_mem_cons, List.forall_mem_cons, List.forall_mem_append]
      exact ⟨hdigit _ rfl, hpoint, hzeros _, htext⟩

end Decimal

/-- The characters of a float are digits, the point, the sign and the letters of what is not
finite. -/
theorem Double.forall_mem_write (hdigit : ∀ c, c.isDigit = true → p c)
    (hmarks : ∀ c ∈ "-.NaNinf".toList, p c) (x : Double) : ∀ c ∈ (x.write .sql).toList, p c := by
  have hword {w : String} (hw : w.toList ⊆ "-.NaNinf".toList) : ∀ c ∈ w.toList, p c :=
    fun c hc => hmarks c (hw hc)
  rw [write]
  split
  · exact hword (by decide)
  · refine forall_mem_append ?_ ?_
    · split <;> exact hword (by decide)
    · split
      · exact (x.shortest NumberFormat.sql.tie).forall_mem_positional hdigit (hmarks _ (by decide))
      · exact hword (by decide)

theorem Double.numeric_write (x : Double) : Numeric (x.write .sql) :=
  x.forall_mem_write (fun _ => isNumeric_of_isDigit) (show Numeric "-.NaNinf" by decide)

end TypedSql
