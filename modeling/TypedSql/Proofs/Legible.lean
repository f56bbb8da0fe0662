import Mathlib.Data.List.Pairwise
import TypedSql.Proofs.NumberText
import TypedSql.Proofs.Written

/-! Legible texts. A sort of texts is legible if a text of it can be told off from what follows: no two
things of the sort are written alike, and none is written as another one is together with a part of
what follows. Two lists of words go with a sort, those that its texts can begin with and those that
can begin what follows them, and legible sorts are put together as long as these words differ. -/

namespace TypedSql

namespace Text

/-- The text begins with one of the words. -/
def Starts (words : List String) (cs : List Char) : Prop :=
  ∃ w ∈ words, w.toList <+: cs

/-- Neither word begins with the other. -/
def Unlike (w v : String) : Prop :=
  ¬ w.toList <+: v.toList ∧ ¬ v.toList <+: w.toList

instance (w v : String) : Decidable (Unlike w v) :=
  inferInstanceAs (Decidable (¬ w.toList <+: v.toList ∧ ¬ v.toList <+: w.toList))

/-- No word of the one list is like a word of the other, so nothing begins with words of both. -/
def Apart (ws vs : List String) : Prop :=
  ∀ w ∈ ws, ∀ v ∈ vs, Unlike w v

instance (ws vs : List String) : Decidable (Apart ws vs) :=
  List.decidableBAll (fun w => ∀ v ∈ vs, Unlike w v) ws

/-- What begins with one of the words begins with one of the heads. -/
def Covers (heads ws : List String) : Prop :=
  ∀ w ∈ ws, ∃ v ∈ heads, v.toList <+: w.toList

instance (heads ws : List String) : Decidable (Covers heads ws) :=
  inferInstanceAs (Decidable (∀ w ∈ ws, ∃ v ∈ heads, v.toList <+: w.toList))

/-- Two words are told apart by what is written, also where one of them begins with the other: what
can follow the shorter one does not go on like the longer one. -/
def Told (follow : List String) (w v : String) : Prop :=
  (w.toList <+: v.toList → ∀ u ∈ follow, Unlike (w ++ u) v) ∧
    (v.toList <+: w.toList → ∀ u ∈ follow, Unlike (v ++ u) w)

instance (follow : List String) (w v : String) : Decidable (Told follow w v) :=
  inferInstanceAs (Decidable ((w.toList <+: v.toList → ∀ u ∈ follow, Unlike (w ++ u) v) ∧
    (v.toList <+: w.toList → ∀ u ∈ follow, Unlike (v ++ u) w)))

/-- Any two of the words are told apart. -/
def Code (follow words : List String) : Prop :=
  words.Pairwise (Told follow)

instance (follow words : List String) : Decidable (Code follow words) :=
  inferInstanceAs (Decidable (words.Pairwise (Told follow)))

section

variable {ws vs us : List String} {w v : String} {cs cs' : List Char}

theorem Covers.refl (ws : List String) : Covers ws ws :=
  fun w hw => ⟨w, hw, List.prefix_refl _⟩

theorem covers_map (w : String) (ws : List String) : Covers [w] (ws.map (w ++ ·)) := by
  intro v hv
  obtain ⟨u, -, rfl⟩ := List.mem_map.1 hv
  exact ⟨w, List.mem_singleton_self w, String.toList_append ▸ List.prefix_append _ _⟩

theorem Covers.starts (h : Covers ws vs) (hcs : Starts vs cs) : Starts ws cs := by
  obtain ⟨v, hv, hvcs⟩ := hcs
  obtain ⟨w, hw, hwv⟩ := h v hv
  exact ⟨w, hw, hwv.trans hvcs⟩

theorem Starts.append_left (h : Starts ws cs) (vs : List String) : Starts (ws ++ vs) cs := by
  obtain ⟨w, hw, hcs⟩ := h
  exact ⟨w, List.mem_append_left vs hw, hcs⟩

theorem Starts.append_right (ws : List String) (h : Starts vs cs) : Starts (ws ++ vs) cs := by
  obtain ⟨w, hw, hcs⟩ := h
  exact ⟨w, List.mem_append_right ws hw, hcs⟩

theorem starts_word (w : String) (cs : List Char) : Starts [w] (w.toList ++ cs) :=
  ⟨w, List.mem_singleton_self w, List.prefix_append _ _⟩

theorem Unlike.append_ne (h : Unlike w v) (cs cs' : List Char) :
    w.toList ++ cs ≠ v.toList ++ cs' := by
  intro he
  have hw : w.toList <+: v.toList ++ cs' := he ▸ List.prefix_append _ _
  rcases List.prefix_or_prefix_of_prefix hw (List.prefix_append _ _) with hpre | hpre
  · exact h.1 hpre
  · exact h.2 hpre

theorem Apart.not_starts (h : Apart ws vs) (hw : Starts ws cs) : ¬ Starts vs cs := by
  rintro ⟨v, hv, c, hc⟩
  obtain ⟨w, hw, d, hd⟩ := hw
  exact (h w hw v hv).append_ne d c (hd.trans hc.symm)

theorem Told.symm {follow : List String} (h : Told follow w v) : Told follow v w :=
  ⟨h.2, h.1⟩

theorem Told.append_ne {follow : List String} (h : Told follow w v) (hcs : Starts follow cs)
    (hcs' : Starts follow cs') : w.toList ++ cs ≠ v.toList ++ cs' := by
  intro he
  -- The longer word is like the shorter one with what follows it.
  have hlong {w v : String} {cs cs' : List Char} (hcs : Starts follow cs)
      (he : w.toList ++ cs = v.toList ++ cs') : ¬ ∀ u ∈ follow, Unlike (w ++ u) v := by
    obtain ⟨u, hu, rest, rfl⟩ := hcs
    intro hunlike
    refine (hunlike u hu).append_ne rest cs' ?_
    rw [String.toList_append, List.append_assoc, he]
  have hw : w.toList <+: v.toList ++ cs' := he ▸ List.prefix_append _ _
  rcases List.prefix_or_prefix_of_prefix hw (List.prefix_append _ _) with hpre | hpre
  · exact hlong hcs he (h.1 hpre)
  · exact hlong hcs' he.symm (h.2 hpre)

end

/-- Behind a quoted text no quote may follow, because it would be read as one that is doubled. -/
theorem doubled_append_inj {quote : Char} {cs cs' rest rest' : List Char}
    (hrest : ¬ [quote] <+: rest) (hrest' : ¬ [quote] <+: rest')
    (h : doubled quote cs ++ quote :: rest = doubled quote cs' ++ quote :: rest') :
    cs = cs' ∧ rest = rest' := by
  have hend (c : Char) (cs rest rest' : List Char) (hrest : ¬ [quote] <+: rest) :
      quote :: rest ≠ doubled quote (c :: cs) ++ quote :: rest' := by
    intro he
    rw [doubled] at he
    split at he
    · rw [List.cons_append, List.cons_append, List.cons.injEq] at he
      exact hrest ⟨_, he.2.symm⟩
    · rename_i hc
      rw [List.cons_append, List.cons.injEq] at he
      exact hc he.1.symm
  induction cs generalizing cs' with
  | nil =>
      cases cs' with
      | nil => exact ⟨rfl, (List.cons.inj h).2⟩
      | cons c' cs' => exact absurd h (hend c' cs' rest rest' hrest)
  | cons c cs ih =>
      cases cs' with
      | nil => exact absurd h.symm (hend c cs rest' rest hrest')
      | cons c' cs' =>
          rw [doubled, doubled] at h
          split at h <;> split at h
          · rename_i hc hc'
            simp only [List.cons_append, List.cons.injEq, true_and] at h
            obtain ⟨rfl, hrests⟩ := ih h
            exact ⟨by rw [hc, hc'], hrests⟩
          · rename_i hc'
            exact absurd (List.cons.inj h).1.symm hc'
          · rename_i hc _
            exact absurd (List.cons.inj h).1 hc
          · obtain ⟨rfl, htail⟩ := List.cons.inj h
            obtain ⟨rfl, hrests⟩ := ih htail
            exact ⟨rfl, hrests⟩

def digits : List String :=
  ["0", "1", "2", "3", "4", "5", "6", "7", "8", "9"]

theorem starts_digits {c : Char} (h : c.isDigit = true) (cs : List Char) :
    Starts digits (c :: cs) := by
  have hall : ∀ k < 10, ∃ w ∈ digits, w.toList = [Char.ofNat (48 + k)] := by decide
  have hc : 48 ≤ c.toNat ∧ c.toNat ≤ 57 := Char.isDigit_iff_toNat.1 h
  obtain ⟨w, hw, hchars⟩ := hall (c.toNat - 48) (by omega)
  rw [Nat.add_sub_cancel' hc.1, Char.ofNat_toNat] at hchars
  exact ⟨w, hw, by rw [hchars]; exact ⟨cs, rfl⟩⟩

/-- Texts of a sort are told off from what follows: `ok` says which things are of the sort, and `same`
what their texts tell of them. -/
structure Legible {α : Type} (first follow : List String) (ok : α → Prop) (text : α → List Char)
    (same : α → α → Prop) : Prop where
  starts : ∀ x, ok x → ∀ rest, Starts follow rest → Starts first (text x ++ rest)
  settles : ∀ x y, ok x → ok y → ∀ rest rest', Starts follow rest → Starts follow rest' →
    text x ++ rest = text y ++ rest' → same x y ∧ rest = rest'

namespace Legible

variable {α β : Type} {first first' follow follow' : List String} {ok ok' : α → Prop}
  {text text' : α → List Char} {same same' : α → α → Prop}

/-- Texts of the sort tell also where nothing follows them. -/
theorem inj {w : String} (h : Legible first (w :: follow) ok text same) {x y : α} (hx : ok x)
    (hy : ok y) (he : text x = text y) : same x y := by
  have hend : Starts (w :: follow) w.toList := ⟨w, List.mem_cons_self, List.prefix_refl _⟩
  exact (h.settles x y hx hy _ _ hend hend (congrArg (· ++ w.toList) he)).1

theorem mono (h : Legible first follow ok text same) (hfirst : Covers first' first)
    (hfollow : Covers follow follow') : Legible first' follow' ok text same where
  starts x hx rest hrest := hfirst.starts (h.starts x hx rest (hfollow.starts hrest))
  settles x y hx hy rest rest' hrest hrest' he :=
    h.settles x y hx hy rest rest' (hfollow.starts hrest) (hfollow.starts hrest') he

/-- Fewer things are of the sort, or their texts are asked for less. -/
theorem imp (h : Legible first follow ok text same) (hok : ∀ x, ok' x → ok x)
    (hsame : ∀ x y, ok' x → ok' y → same x y → same' x y) :
    Legible first follow ok' text same' where
  starts x hx := h.starts x (hok x hx)
  settles x y hx hy rest rest' hrest hrest' he := by
    obtain ⟨hxy, hrests⟩ := h.settles x y (hok x hx) (hok y hy) rest rest' hrest hrest' he
    exact ⟨hsame x y hx hy hxy, hrests⟩

theorem of_text (h : Legible first follow ok text same) (text' : α → List Char)
    (ht : ∀ x, ok x → text' x = text x) : Legible first follow ok text' same where
  starts x hx rest hrest := by
    rw [ht x hx]
    exact h.starts x hx rest hrest
  settles x y hx hy rest rest' hrest hrest' he := by
    rw [ht x hx, ht y hy] at he
    exact h.settles x y hx hy rest rest' hrest hrest' he

/-- A part of a thing. -/
theorem on (h : Legible first follow ok text same) (f : β → α) :
    Legible first follow (fun x => ok (f x)) (fun x => text (f x)) fun x y => same (f x) (f y) where
  starts x := h.starts (f x)
  settles x y := h.settles (f x) (f y)

/-- The things that are made of others by a function. -/
theorem image {same : β → β → Prop} {text : β → List Char} (h : Legible first follow ok text' same')
    (make : α → β) (ht : ∀ x, ok x → text (make x) = text' x)
    (hsame : ∀ x y, ok x → ok y → same' x y → same (make x) (make y)) :
    Legible first follow (fun z => ∃ x, ok x ∧ make x = z) text same where
  starts := by
    rintro z ⟨x, hx, rfl⟩ rest hrest
    rw [ht x hx]
    exact h.starts x hx rest hrest
  settles := by
    rintro z z' ⟨x, hx, rfl⟩ ⟨y, hy, rfl⟩ rest rest' hrest hrest' he
    rw [ht x hx, ht y hy] at he
    obtain ⟨hxy, hrests⟩ := h.settles x y hx hy rest rest' hrest hrest' he
    exact ⟨hsame x y hx hy hxy, hrests⟩

theorem empty : Legible follow follow ok (fun _ => []) fun _ _ => True where
  starts _ _ _ hrest := hrest
  settles _ _ _ _ _ _ _ _ he := ⟨trivial, he⟩

theorem word (w : String) (ok : α → Prop) : Legible [w] follow ok (fun _ => w.toList) fun _ _ => True where
  starts _ _ rest _ := starts_word w rest
  settles _ _ _ _ _ _ _ _ he := ⟨trivial, List.append_cancel_left he⟩

theorem append {text₁ text₂ : α → List Char} {ok₁ ok₂ : α → Prop} {same₁ same₂ : α → α → Prop}
    {first₂ : List String} (h₁ : Legible first follow ok₁ text₁ same₁)
    (h₂ : Legible first₂ follow' ok₂ text₂ same₂) (hc : Covers follow first₂) :
    Legible first follow' (fun x => ok₁ x ∧ ok₂ x) (fun x => text₁ x ++ text₂ x)
      fun x y => same₁ x y ∧ same₂ x y where
  starts x hx rest hrest := by
    rw [List.append_assoc]
    exact h₁.starts x hx.1 _ (hc.starts (h₂.starts x hx.2 rest hrest))
  settles x y hx hy rest rest' hrest hrest' he := by
    rw [List.append_assoc, List.append_assoc] at he
    obtain ⟨hxy₁, hmid⟩ := h₁.settles x y hx.1 hy.1 _ _
      (hc.starts (h₂.starts x hx.2 rest hrest)) (hc.starts (h₂.starts y hy.2 rest' hrest')) he
    obtain ⟨hxy₂, hrests⟩ := h₂.settles x y hx.2 hy.2 rest rest' hrest hrest' hmid
    exact ⟨⟨hxy₁, hxy₂⟩, hrests⟩

/-- Behind a word that is not enough to know it by. -/
theorem behind (w : String) (h : Legible first follow ok text same) :
    Legible (first.map (w ++ ·)) follow ok (fun x => w.toList ++ text x) same where
  starts x hx rest hrest := by
    obtain ⟨v, hv, cs, hcs⟩ := h.starts x hx rest hrest
    refine ⟨w ++ v, List.mem_map_of_mem hv, cs, ?_⟩
    rw [String.toList_append, List.append_assoc, hcs, List.append_assoc]
  settles x y hx hy rest rest' hrest hrest' he := by
    rw [List.append_assoc, List.append_assoc] at he
    exact h.settles x y hx hy rest rest' hrest hrest' (List.append_cancel_left he)

/-- Behind a word. -/
theorem led (w : String) (h : Legible first follow ok text same) :
    Legible [w] follow ok (fun x => w.toList ++ text x) same := by
  refine ((word w ok).append h (Covers.refl first)).imp ?_ fun _ _ _ _ hxy => hxy.2
  exact fun x hx => ⟨hx, hx⟩

/-- Before a word. -/
theorem ended (w : String) (h : Legible first follow ok text same) (hc : Covers follow [w])
    (follow' : List String) : Legible first follow' ok (fun x => text x ++ w.toList) same := by
  refine (h.append (word w ok) hc).imp ?_ fun _ _ _ _ hxy => hxy.1
  exact fun x hx => ⟨hx, hx⟩

/-- Things of two sorts that begin with different words. -/
theorem union {first₁ first₂ : List String} {ok₁ ok₂ : α → Prop}
    (h₁ : Legible first₁ follow ok₁ text same) (h₂ : Legible first₂ follow ok₂ text same)
    (hf : Apart first₁ first₂) :
    Legible (first₁ ++ first₂) follow (fun x => ok₁ x ∨ ok₂ x) text same where
  starts x hx rest hrest := by
    rcases hx with hx | hx
    · exact (h₁.starts x hx rest hrest).append_left first₂
    · exact (h₂.starts x hx rest hrest).append_right first₁
  settles x y hx hy rest rest' hrest hrest' he := by
    rcases hx with hx | hx <;> rcases hy with hy | hy
    · exact h₁.settles x y hx hy rest rest' hrest hrest' he
    · have hstarts := h₁.starts x hx rest hrest
      rw [he] at hstarts
      exact absurd (h₂.starts y hy rest' hrest') (hf.not_starts hstarts)
    · have hstarts := h₁.starts y hy rest' hrest'
      rw [← he] at hstarts
      exact absurd (h₂.starts x hx rest hrest) (hf.not_starts hstarts)
    · exact h₂.settles x y hx hy rest rest' hrest hrest' he

/-- Nothing, where there is nothing to be written. -/
theorem absent (a : α) (ht : text a = []) : Legible follow follow (· = a) text (· = ·) :=
  (empty.of_text _ fun x hx => by rw [hx, ht]).imp (fun _ hx => hx) fun _ _ hx hy _ => hx.trans hy.symm

/-- A thing that may be missing. -/
theorem option (h : Legible first follow ok text (· = ·)) (hf : Apart first follow) :
    Legible (first ++ follow) follow (fun x : Option α => ∀ a ∈ x, ok a)
      (fun x => x.elim [] text) (· = ·) := by
  have hsome : Legible first follow (fun x : Option α => ∃ a, ok a ∧ some a = x)
      (fun x => x.elim [] text) (· = ·) :=
    h.image some (fun _ _ => rfl) fun _ _ _ _ he => congrArg some he
  refine (hsome.union (absent none rfl) hf).imp ?_ fun _ _ _ _ he => he
  intro x hx
  cases x with
  | none => exact .inr rfl
  | some a => exact .inl ⟨a, hx a rfl, rfl⟩

/-- Any number of things, one behind the other. -/
theorem many (h : Legible first (first ++ follow) ok text (· = ·)) (hf : Apart first follow) :
    Legible (first ++ follow) follow (fun xs : List α => ∀ x ∈ xs, ok x)
      (fun xs => xs.flatMap text) (· = ·) := by
  have hstarts (xs : List α) (hxs : ∀ x ∈ xs, ok x) (rest : List Char) (hrest : Starts follow rest) :
      Starts (first ++ follow) (xs.flatMap text ++ rest) := by
    induction xs with
    | nil => exact hrest.append_right first
    | cons x xs ih =>
        rw [List.forall_mem_cons] at hxs
        rw [List.flatMap_cons, List.append_assoc]
        exact (h.starts x hxs.1 _ (ih hxs.2)).append_left follow
  have hnot (x : α) (hx : ok x) (xs : List α) (hxs : ∀ x ∈ xs, ok x) (rest rest' : List Char)
      (hrest : Starts follow rest) (hrest' : Starts follow rest') :
      text x ++ (xs.flatMap text ++ rest) ≠ rest' := by
    rintro rfl
    exact hf.not_starts (h.starts x hx _ (hstarts xs hxs rest hrest)) hrest'
  refine ⟨hstarts, ?_⟩
  intro xs ys hxs hys rest rest' hrest hrest' he
  induction xs generalizing ys with
  | nil =>
      cases ys with
      | nil => exact ⟨rfl, he⟩
      | cons y ys =>
          rw [List.forall_mem_cons] at hys
          rw [List.flatMap_cons, List.append_assoc] at he
          exact absurd he.symm (hnot y hys.1 ys hys.2 rest' rest hrest' hrest)
  | cons x xs ih =>
      rw [List.forall_mem_cons] at hxs
      rw [List.flatMap_cons, List.append_assoc] at he
      cases ys with
      | nil => exact absurd he (hnot x hxs.1 xs hxs.2 rest rest' hrest hrest')
      | cons y ys =>
          rw [List.forall_mem_cons] at hys
          rw [List.flatMap_cons, List.append_assoc] at he
          obtain ⟨rfl, hmid⟩ := h.settles x y hxs.1 hys.1 _ _ (hstarts xs hxs.2 rest hrest)
            (hstarts ys hys.2 rest' hrest') he
          obtain ⟨rfl, hrests⟩ := ih ys hxs.2 hys.2 hmid
          exact ⟨rfl, hrests⟩

theorem intercalate_eq (w : List Char) (x : α) (xs : List α) :
    w.intercalate ((x :: xs).map text) = text x ++ xs.flatMap fun y => w ++ text y := by
  induction xs generalizing x with
  | nil => exact List.append_nil _ ▸ List.intercalate_singleton
  | cons y ys ih =>
      rw [List.map_cons, List.map_cons, List.intercalate_cons_cons, ← List.map_cons, ih,
        List.flatMap_cons, List.append_assoc, List.append_assoc]

/-- One thing or more, with a word between them. Another thing is known by the leads. -/
theorem chain {w : String} (leads : List String)
    (h : Legible first (leads ++ follow) ok text (· = ·))
    (hleads : Covers leads (first.map (w ++ ·))) (hw : Apart leads follow) :
    Legible first follow (fun xs : List α => xs ≠ [] ∧ ∀ x ∈ xs, ok x)
      (fun xs => w.toList.intercalate (xs.map text)) (· = ·) := by
  have hmore := ((h.behind w).mono hleads (Covers.refl _)).many hw
  have hpair := (h.on Prod.fst).append (hmore.on Prod.snd) (Covers.refl _)
  refine (hpair.image (fun p : α × List α => p.1 :: p.2) ?_ ?_).imp ?_ fun _ _ _ _ he => he
  · exact fun p _ => intercalate_eq w.toList p.1 p.2
  · rintro ⟨x, xs⟩ ⟨y, ys⟩ _ _ ⟨hx, hxs⟩
    exact congrArg₂ List.cons hx hxs
  · rintro (_ | ⟨x, xs⟩) ⟨hne, hxs⟩
    · exact absurd rfl hne
    · exact ⟨(x, xs), List.forall_mem_cons.1 hxs, rfl⟩

/-- Any number of things, with commas between them. -/
theorem commas (h : Legible first (", " :: follow) ok text (· = ·))
    (hfollow : Apart [", "] follow) (hf : Apart first follow) :
    Legible (first ++ follow) follow (fun xs : List α => ∀ x ∈ xs, ok x)
      (fun xs => ", ".toList.intercalate (xs.map text)) (· = ·) := by
  have hchain := Legible.chain [", "] h (covers_map ", " first) hfollow
  refine (hchain.union (absent [] (by rw [List.map_nil, List.intercalate_nil])) hf).imp ?_
    fun _ _ _ _ he => he
  intro xs hxs
  by_cases hnil : xs = []
  · exact .inr hnil
  · exact .inl ⟨hnil, hxs⟩

/-- Things in brackets, or nothing where there are none of them. -/
theorem enclosed {w w' : String} (h : Legible first [", ", w'] ok text (· = ·))
    (hclose : Apart [", "] [w']) (hopen : Apart [w] follow) :
    Legible (w :: follow) follow (fun xs : List α => ∀ x ∈ xs, ok x)
      (fun xs => if xs.isEmpty then [] else
        w.toList ++ (", ".toList.intercalate (xs.map text) ++ w'.toList)) (· = ·) := by
  have hchain := Legible.chain [", "] h (covers_map ", " first) hclose
  have hsome := (hchain.ended w' (Covers.refl _) follow).led w
  have hlist := hsome.of_text (fun xs : List α => if xs.isEmpty then [] else
      w.toList ++ (", ".toList.intercalate (xs.map text) ++ w'.toList)) fun xs hxs => by
    rw [if_neg (mt List.isEmpty_iff.1 hxs.1)]
  refine (hlist.union (absent [] rfl) hopen).imp ?_ fun _ _ _ _ he => he
  intro xs hxs
  by_cases hnil : xs = []
  · exact .inr hnil
  · exact .inl ⟨hnil, hxs⟩

/-- A word that may be missing. -/
theorem flag {w : String} (hw : Apart [w] follow) :
    Legible (w :: follow) follow (fun _ => True) (fun b : Bool => if b then w.toList else [])
      (· = ·) := by
  have htrue : Legible [w] follow (· = true) (fun b : Bool => if b then w.toList else [])
      (· = ·) :=
    ((word w _).of_text _ fun b hb => by rw [if_pos hb]).imp (fun _ hb => hb)
      fun _ _ hb hb' _ => hb.trans hb'.symm
  refine (htrue.union (absent false rfl) hw).imp ?_ fun _ _ _ _ he => he
  intro b _
  cases b with
  | false => exact .inr rfl
  | true => exact .inl rfl

/-- One of some words. What follows must not make one of them another. -/
theorem keyword (sql : α → String) (all : List α) (hcode : Code follow (all.map sql)) :
    Legible (all.map sql) follow (· ∈ all) (fun x => (sql x).toList) (· = ·) where
  starts x hx rest _ :=
    (Covers.starts (fun w hw => ⟨w, List.mem_singleton.1 hw ▸ List.mem_map_of_mem hx,
      List.prefix_refl _⟩) (starts_word (sql x) rest))
  settles x y hx hy rest rest' hrest hrest' he := by
    have hxy : x = y := by
      by_contra hne
      rw [Code, List.pairwise_map] at hcode
      have hsymm : Std.Symm fun x y => Told follow (sql x) (sql y) := ⟨fun _ _ h => h.symm⟩
      exact (hcode.forall hx hy hne).append_ne hrest hrest' he
    rw [hxy] at he ⊢
    exact ⟨rfl, List.append_cancel_left he⟩

/-- A quoted text. -/
theorem quoted (quote : Char) (hf : Apart [quote.toString] follow) :
    Legible [quote.toString] follow (fun _ => True) (fun s => (quoted quote s).toList)
      (· = ·) := by
  have hnone (rest : List Char) (hrest : Starts follow rest) : ¬ [quote] <+: rest := by
    intro hquote
    have hstarts : Starts [quote.toString] rest :=
      ⟨_, List.mem_singleton_self _, by rwa [Char.toString, String.toList_singleton]⟩
    exact hf.not_starts hstarts hrest
  refine ⟨?_, ?_⟩
  · intro s _ rest _
    rw [toList_quoted_append]
    refine ⟨_, List.mem_singleton_self _, ?_⟩
    rw [Char.toString, String.toList_singleton]
    exact ⟨_, rfl⟩
  · intro s s' _ _ rest rest' hrest hrest' he
    rw [toList_quoted_append, toList_quoted_append] at he
    obtain ⟨hs, hrests⟩ :=
      doubled_append_inj (hnone rest hrest) (hnone rest' hrest') (List.cons.inj he).2
    exact ⟨String.toList_injective hs, hrests⟩

/-- A natural number. -/
theorem number (hf : Apart digits follow) :
    Legible digits follow (fun _ => True) (fun n : Nat => (toString n).toList) (· = ·) := by
  have hdigits (n : Nat) : ∀ c ∈ (toString n).toList, c.isDigit = true :=
    forall_mem_repr (fun _ hc => hc) n
  have hspan (n : Nat) (rest : List Char) (hrest : Starts follow rest) :
      ((toString n).toList ++ rest).takeWhile Char.isDigit = (toString n).toList := by
    rw [List.takeWhile_append_of_pos (hdigits n)]
    cases rest with
    | nil => rw [List.takeWhile_nil, List.append_nil]
    | cons c rest =>
        have hc : ¬ c.isDigit = true := fun hc => hf.not_starts (starts_digits hc rest) hrest
        rw [List.takeWhile_cons_of_neg hc, List.append_nil]
  refine ⟨?_, ?_⟩
  · intro n _ rest _
    have hne : (toString n).toList ≠ [] := by
      rw [Nat.toString_eq_repr, Nat.toList_repr]
      exact Nat.toDigits_ne_nil
    obtain ⟨c, cs, hcs⟩ := List.exists_cons_of_ne_nil hne
    have hc := hdigits n c (hcs ▸ List.mem_cons_self)
    rw [hcs]
    exact starts_digits hc _
  · intro n n' _ _ rest rest' hrest hrest' he
    have hchars : (toString n).toList = (toString n').toList := by
      rw [← hspan n rest hrest, he, hspan n' rest' hrest']
    have hread (n : Nat) : Nat.ofDigitChars 10 (toString n).toList 0 = n := by
      rw [Nat.toString_eq_repr, Nat.toList_repr]
      exact Nat.ofDigitChars_toDigits (by decide) (by decide)
    have hn : n = n' := by rw [← hread n, hchars, hread]
    rw [hchars] at he
    exact ⟨hn, List.append_cancel_left he⟩

end Legible

end Text

end TypedSql
