import TypedSql.Proofs.Json.Value
import TypedSql.Proofs.Double.Shortest

/-! Written decimals are numbers of the grammar. In every format, with or without an exponent, what is written
has the value of the decimal. -/

namespace TypedSql

namespace Numeral

/-! ### Digits of a number -/

theorem digits_toDigits (m : Nat) : Digits (Nat.toDigits 10 m) :=
  ⟨Nat.toDigits_ne_nil, fun _ hc => Nat.isDigit_of_mem_toDigits (by decide) (by decide) hc⟩

/-- The digits of a positive number do not begin with a zero. -/
theorem head_toDigits {m : Nat} (hm : m ≠ 0) {c : Char} {cs : List Char}
    (h : Nat.toDigits 10 m = c :: cs) : c ≠ '0' := by
  rintro rfl
  have hdigits := (digits_toDigits m).2
  have hvalue : Nat.ofDigitChars 10 (Nat.toDigits 10 m) 0 = m := Nat.ofDigitChars_ten_toDigits
  have hlength : (Nat.toDigits 10 m).length = cs.length + 1 := by rw [h, List.length_cons]
  rw [h] at hdigits hvalue
  have hlt : m < 10 ^ cs.length := by
    have hbound := (ofDigitChars_bounds (List.forall_mem_cons.1 hdigits).2 0).2
    rw [Nat.zero_add, Nat.one_mul] at hbound
    exact hvalue.symm.trans_lt hbound
  rcases Nat.eq_zero_or_pos cs.length with hnil | hpos
  · rw [hnil] at hlt
    omega
  · have hle := (Nat.length_toDigits_le_iff (by decide) hpos).2 hlt
    omega

theorem spellsWhole_append {m : Nat} (hm : m ≠ 0) {ds : List Char}
    (hds : ∀ c ∈ ds, c.isDigit = true) : SpellsWhole (Nat.toDigits 10 m ++ ds) := by
  obtain ⟨c, cs, hlist⟩ := List.exists_cons_of_ne_nil (Nat.toDigits_ne_nil : Nat.toDigits 10 m ≠ [])
  have hdigits := (digits_toDigits m).2
  rw [hlist, List.forall_mem_cons] at hdigits
  rw [hlist, List.cons_append]
  exact .digits hdigits.1 (head_toDigits hm hlist) (List.forall_mem_append.2 ⟨hdigits.2, hds⟩)

theorem isDigit_zeros (k : Nat) : ∀ c ∈ List.replicate k '0', c.isDigit = true := by
  intro c hc
  rw [List.eq_of_mem_replicate hc]
  rfl

theorem ofDigitChars_zeros (k init : Nat) :
    Nat.ofDigitChars 10 (List.replicate k '0') init = init * 10 ^ k := by
  induction k generalizing init with
  | zero => rw [List.replicate_zero, Nat.ofDigitChars_nil, Nat.pow_zero, Nat.mul_one]
  | succ k ih =>
      rw [List.replicate_succ, ofDigitChars_cons, ih, Nat.pow_succ']
      rw [show digitValue '0' = 0 from rfl]
      ring

/-- The value of a numeral from the number of its digits and the place of the last one. -/
theorem size_of_digits {n : Numeral} {m : Nat} {k : Int}
    (hdigits : Nat.ofDigitChars 10 (n.whole ++ n.fraction.getD []) 0 = m) (hscale : n.scale = k) :
    n.size = m * (10 : ℚ) ^ k := by
  rw [size, digits, hdigits, hscale]

end Numeral

namespace Decimal

open Numeral

variable (d : Decimal)

theorem text_length_pos : 0 < d.text.length :=
  List.length_pos_iff.2 Nat.toDigits_ne_nil

/-- The decimal is a numeral of its value, spelled by the text. -/
def SpelledBy (s : String) : Prop :=
  ∃ n : Numeral, n.negative = false ∧ n.Spells s.toList ∧ n.size = d.value

variable {d}

theorem SpelledBy.point {s : String} {w f : List Char} {m : Nat} (hs : s.toList = w ++ '.' :: f)
    (hw : SpellsWhole w) (hf : Digits f) (hm : Nat.ofDigitChars 10 (w ++ f) 0 = m)
    (hvalue : m * (10 : ℚ) ^ (-f.length : Int) = d.value) : d.SpelledBy s := by
  refine ⟨⟨false, w, some f, none⟩, rfl, ⟨'.' :: f, [], ?_, hw, .point hf, .absent⟩, ?_⟩
  · rw [if_neg Bool.false_ne_true, List.append_nil, hs]
    rfl
  · rw [← hvalue]
    refine size_of_digits hm ?_
    rw [scale, exponentValue, Option.getD_some, zero_sub]

/-- A whole number has zeros behind its digits. -/
theorem whole_spelled (hd : d.digits = 0 → d.exponent = 0) {k : Nat} (hk : d.exponent = k)
    (pointZero : Bool) : d.SpelledBy (String.ofList (d.text ++ List.replicate k '0') ++
      (if pointZero then ".0" else "")) := by
  have hwhole : SpellsWhole (d.text ++ List.replicate k '0') := by
    rcases eq_or_ne d.digits 0 with hzero | hne
    · have hexponent := hd hzero
      obtain rfl : k = 0 := by omega
      rw [text, hzero]
      exact .zero
    · exact spellsWhole_append hne (isDigit_zeros k)
  have hvalue : Nat.ofDigitChars 10 (d.text ++ List.replicate k '0') 0 = d.digits * 10 ^ k := by
    have hdigits : Nat.ofDigitChars 10 d.text 0 = d.digits := Nat.ofDigitChars_ten_toDigits
    rw [Nat.ofDigitChars_append, hdigits, ofDigitChars_zeros]
  cases pointZero with
  | true =>
      refine .point (f := ['0']) (m := d.digits * 10 ^ k * 10) ?_ hwhole SpellsWhole.zero.isDigits ?_ ?_
      · rw [if_pos rfl, String.toList_append, String.toList_ofList]
        rfl
      · rw [Nat.ofDigitChars_append, hvalue]
        exact ofDigitChars_zeros 1 _
      · rw [Decimal.value, hk, zpow_natCast, List.length_singleton]
        push_cast
        rw [zpow_neg_one]
        ring
  | false =>
      refine ⟨⟨false, d.text ++ List.replicate k '0', none, none⟩, rfl, ⟨[], [], ?_, hwhole, .absent,
        .absent⟩, ?_⟩
      · rw [if_neg Bool.false_ne_true, String.toList_append, String.toList_ofList]
        rfl
      · have hall : Nat.ofDigitChars 10 ((d.text ++ List.replicate k '0') ++ []) 0 = d.digits * 10 ^ k := by
          rw [List.append_nil, hvalue]
        rw [size_of_digits hall (k := 0) rfl, Decimal.value, hk, zpow_zero, mul_one, zpow_natCast]
        push_cast
        rfl

theorem positional_spelled (hd : d.digits = 0 → d.exponent = 0) (pointZero : Bool) :
    d.SpelledBy (d.positional pointZero) := by
  have hdigits : Digits d.text := digits_toDigits d.digits
  have hvalue : Nat.ofDigitChars 10 d.text 0 = d.digits := Nat.ofDigitChars_ten_toDigits
  have hlength := d.text_length_pos
  rw [positional]
  dsimp only
  by_cases hexponent : 0 ≤ d.exponent
  · obtain ⟨k, hk⟩ : ∃ k : ℕ, d.exponent = k := ⟨d.exponent.toNat, by omega⟩
    have hspelled := whole_spelled hd hk pointZero
    rwa [if_pos hexponent, hk, Int.toNat_natCast]
  rw [if_neg hexponent]
  have hne : d.digits ≠ 0 := fun hzero => hexponent (hd hzero).ge
  have hscale : d.scientificExponent = d.exponent + (d.text.length - 1 : ℕ) := rfl
  by_cases hscientific : 0 ≤ d.scientificExponent
  · rw [if_pos hscientific]
    obtain ⟨k, hk⟩ : ∃ k : ℕ, d.scientificExponent = k := ⟨d.scientificExponent.toNat, by omega⟩
    rw [hk, Int.toNat_natCast]
    obtain ⟨c, cs, hlist⟩ := List.exists_cons_of_ne_nil hdigits.1
    have hhead := head_toDigits hne hlist
    have hall := hdigits.2
    rw [hlist, List.forall_mem_cons] at hall
    refine .point (m := d.digits) String.toList_ofList ?_ ⟨?_, ?_⟩ ?_ ?_
    · rw [hlist, List.take_succ_cons]
      exact .digits hall.1 hhead fun c hc => hall.2 c (List.mem_of_mem_take hc)
    · rw [← List.length_pos_iff, List.length_drop]
      omega
    · exact fun c hc => hdigits.2 c (List.mem_of_mem_drop hc)
    · rw [List.take_append_drop, hvalue]
    · rw [Decimal.value, List.length_drop]
      congr 2
      omega
  · rw [if_neg hscientific]
    refine .point (w := ['0']) (m := d.digits) String.toList_ofList .zero ⟨?_, ?_⟩ ?_ ?_
    · exact List.append_ne_nil_of_right_ne_nil _ hdigits.1
    · exact List.forall_mem_append.2 ⟨isDigit_zeros _, hdigits.2⟩
    · rw [List.singleton_append, ofDigitChars_cons, Nat.ofDigitChars_append, ofDigitChars_zeros,
        show (10 * 0 + digitValue '0') = 0 from rfl, Nat.zero_mul, hvalue]
    · rw [Decimal.value, List.length_append, List.length_replicate]
      congr 2
      omega

theorem exponent_spelled (plusSign : Bool) (e : Int) :
    SpellsExponent (some (decide (e < 0), Nat.toDigits 10 e.natAbs)) ("e" ++
      (if e < 0 then "-" else if plusSign then "+" else "") ++ toString e.natAbs).toList := by
  have hdigits := digits_toDigits e.natAbs
  rw [String.toList_append, Nat.toString_eq_repr, Nat.toList_repr]
  by_cases he : e < 0
  · rw [if_pos he, decide_eq_true he]
    exact .minus (.inl rfl) hdigits
  · rw [if_neg he, decide_eq_false he]
    cases plusSign with
    | true => exact .plus (.inl rfl) hdigits
    | false => exact .unsigned (.inl rfl) hdigits

theorem exponentValue_toDigits (e : Int) :
    exponentValue (some (decide (e < 0), Nat.toDigits 10 e.natAbs)) = e := by
  rw [exponentValue, natValue_eq, Nat.ofDigitChars_ten_toDigits]
  by_cases he : e < 0
  · rw [if_pos (decide_eq_true he)]
    omega
  · rw [if_neg (by rw [decide_eq_true_eq]; exact he)]
    omega

theorem spellsWhole_singleton {c : Char} (hc : c.isDigit = true) : SpellsWhole [c] := by
  by_cases hzero : c = '0'
  · rw [hzero]
    exact .zero
  · exact .digits hc hzero fun d hd => absurd hd List.not_mem_nil

theorem scientific_spelled (plusSign : Bool) : d.SpelledBy (d.scientific plusSign) := by
  have hdigits : Digits d.text := digits_toDigits d.digits
  have hvalue : Nat.ofDigitChars 10 d.text 0 = d.digits := Nat.ofDigitChars_ten_toDigits
  have hscale : d.scientificExponent = d.exponent + (d.text.length - 1 : ℕ) := rfl
  have hspelled := exponent_spelled plusSign d.scientificExponent
  rw [scientific]
  generalize d.scientificExponent = e at *
  obtain ⟨c, cs, hlist⟩ := List.exists_cons_of_ne_nil hdigits.1
  rw [hlist] at hdigits hvalue hscale ⊢
  have hall := List.forall_mem_cons.1 hdigits.2
  have hexponent := exponentValue_toDigits e
  -- The point is written only where digits follow the first one.
  cases cs with
  | nil =>
      refine ⟨⟨false, [c], none, some (decide (e < 0), Nat.toDigits 10 e.natAbs)⟩, rfl, ⟨[], _, ?_,
        spellsWhole_singleton hall.1, .absent, hspelled⟩, ?_⟩
      · rw [String.append_assoc, String.append_assoc, String.toList_append, String.toList_ofList,
          ← String.append_assoc]
        rfl
      · refine size_of_digits (k := d.exponent) hvalue ?_
        rw [scale, hexponent, hscale]
        simp
  | cons c' cs =>
      refine ⟨⟨false, [c], some (c' :: cs), some (decide (e < 0), Nat.toDigits 10 e.natAbs)⟩, rfl,
        ⟨'.' :: c' :: cs, _, ?_, spellsWhole_singleton hall.1, .point ⟨List.cons_ne_nil _ _, hall.2⟩,
          hspelled⟩, ?_⟩
      · rw [String.append_assoc, String.append_assoc, String.toList_append, String.toList_ofList,
          ← String.append_assoc]
        rfl
      · refine size_of_digits (k := d.exponent) hvalue ?_
        rw [scale, hexponent, hscale]
        simp

theorem write_spelled (hd : d.digits = 0 → d.exponent = 0) (form : NumberFormat) :
    d.SpelledBy (d.write form) := by
  rw [write]
  split
  · exact positional_spelled hd form.pointZero
  · exact scientific_spelled form.plusSign

end Decimal

namespace Double

open Numeral

theorem isNaN_of_isFinite {x : Double} (h : x.isFinite = true) : x.isNaN = false := by
  rw [isFinite, decide_eq_true_eq] at h
  rw [isNaN, Bool.and_eq_false_iff, beq_eq_false_iff_ne]
  exact .inl (by omega)

/-- A finite number is written as a numeral of its sign and its shortest decimal. -/
theorem write_spells {x : Double} (hfinite : x.isFinite = true) (form : NumberFormat) :
    ∃ n : Numeral, n.negative = x.isNegative ∧ n.Spells (x.write form).toList ∧
      n.size = (x.shortest form.tie).value := by
  have hdecimal : (x.shortest form.tie).digits = 0 → (x.shortest form.tie).exponent = 0 := by
    intro hdigits
    have hzero : x.isZero = true := by
      by_contra hne
      exact shortest_digits_ne_zero hne hdigits
    rw [shortest, if_pos hzero]
  obtain ⟨n, hpositive, ⟨f, e, hs, hwhole, hf, he⟩, hsize⟩ := Decimal.write_spelled hdecimal form
  refine ⟨{ n with negative := x.isNegative }, rfl, ⟨f, e, ?_, hwhole, hf, he⟩, hsize⟩
  rw [write, isNaN_of_isFinite hfinite, if_neg Bool.false_ne_true, if_pos hfinite,
    String.toList_append, hs, hpositive]
  split <;> rfl

end Double

end TypedSql
