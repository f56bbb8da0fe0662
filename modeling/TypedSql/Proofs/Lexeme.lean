import TypedSql.Proofs.Written

/-! A reader of quoted text. It goes through a text from left to right: a quote of either kind opens
a token, a doubled quote inside stands for one, and the next quote of the same kind that is not
doubled closes the token. -/

namespace TypedSql

namespace Text

/-- Whether a character opens a quoted token. -/
def isQuote (c : Char) : Bool :=
  c = '"' || c = '\''

/-- No character of the text opens a quoted token. -/
def QuoteFree (s : String) : Prop :=
  ∀ c ∈ s.toList, isQuote c = false

theorem isQuote_of_isMark {c : Char} (h : isMark c = false) : isQuote c = false :=
  (Bool.or_eq_false_iff.1 h).1

theorem Plain.quoteFree {s : String} (h : Plain s) : QuoteFree s :=
  fun c hc => isQuote_of_isMark (h c hc)

/-- What a reader finds. -/
inductive Lexeme where
  /-- A character outside all tokens. -/
  | outside (c : Char)
  | quoted (quote : Char) (contents : String)
  deriving DecidableEq

namespace Lexeme

def quoted? : Lexeme → Option (Char × String)
  | outside _ => none
  | quoted quote contents => some (quote, contents)

end Lexeme

/-- Where a reader is. -/
inductive Position where
  | outside
  /-- Inside a token, after some of its contents. -/
  | inside (quote : Char) (contents : List Char)
  /-- Behind a quote that closes its token, unless another one follows. -/
  | behind (quote : Char) (contents : List Char)

/-- What a reader finds from a position on, if it does not end inside a token. -/
def lexemes? : Position → List Char → Option (List Lexeme)
  | .outside, [] => some []
  | .inside _ _, [] => none
  | .behind quote cs, [] => some [.quoted quote (String.ofList cs)]
  | .outside, c :: rest =>
    if isQuote c then lexemes? (.inside c []) rest
    else (lexemes? .outside rest).map (.outside c :: ·)
  | .inside quote cs, c :: rest =>
    if c = quote then lexemes? (.behind quote cs) rest
    else lexemes? (.inside quote (cs ++ [c])) rest
  | .behind quote cs, c :: rest =>
    if c = quote then lexemes? (.inside quote (cs ++ [quote])) rest
    else
      (if isQuote c then lexemes? (.inside c []) rest
        else (lexemes? .outside rest).map (.outside c :: ·)).map
          (.quoted quote (String.ofList cs) :: ·)

/-- What a reader finds in a text. -/
def read? (s : String) : Option (List Lexeme) :=
  lexemes? .outside s.toList

theorem isQuote_of_isSeparator {c : Char} (h : isSeparator c = true) : isQuote c = false := by
  simp only [isSeparator, Bool.or_eq_true, decide_eq_true_eq] at h
  rcases h with (((rfl | rfl) | rfl) | rfl) | rfl <;> rfl

/-- Characters that open no token are found one by one. -/
theorem lexemes?_append {cs : List Char} (h : ∀ c ∈ cs, isQuote c = false) (rest : List Char) :
    lexemes? .outside (cs ++ rest) =
      (lexemes? .outside rest).map (cs.map Lexeme.outside ++ ·) := by
  induction cs with
  | nil => exact Option.map_id'.symm
  | cons c cs ih =>
      have hc : ¬ isQuote c = true := by
        rw [h c List.mem_cons_self]
        exact Bool.false_ne_true
      rw [List.cons_append, lexemes?, if_neg hc, ih fun d hd => h d (List.mem_cons_of_mem c hd),
        Option.map_map]
      rfl

theorem lexemes?_doubled (quote : Char) (cs before rest : List Char) :
    lexemes? (.inside quote before) (doubled quote cs ++ quote :: rest) =
      lexemes? (.behind quote (before ++ cs)) rest := by
  induction cs generalizing before with
  | nil => rw [doubled, List.nil_append, lexemes?, if_pos rfl, List.append_nil]
  | cons c cs ih =>
      by_cases hc : c = quote
      · rw [doubled, if_pos hc, hc, List.cons_append, List.cons_append, lexemes?, if_pos rfl,
          lexemes?, if_pos rfl, ih, List.append_assoc, List.singleton_append]
      · rw [doubled, if_neg hc, List.cons_append, lexemes?, if_neg hc, ih, List.append_assoc,
          List.singleton_append]

/-- A token is closed where a separator follows, because that is no further quote. -/
theorem lexemes?_behind {quote : Char} (hquote : isQuote quote = true) (cs : List Char)
    {rest : List Char} (hrest : Separated rest) : lexemes? (.behind quote cs) rest =
      (lexemes? .outside rest).map (.quoted quote (String.ofList cs) :: ·) := by
  cases rest with
  | nil => rfl
  | cons c rest =>
      have hc : isQuote c = false := isQuote_of_isSeparator hrest
      have hne : c ≠ quote := by
        rintro rfl
        rw [hc] at hquote
        cases hquote
      rw [lexemes?, lexemes?, if_neg hne]

/-- A quoted text is found as one token with the contents that were quoted. -/
theorem lexemes?_quoted {quote : Char} (hquote : isQuote quote = true) (s : String)
    {rest : List Char} (hrest : Separated rest) :
    lexemes? .outside ((quoted quote s).toList ++ rest) =
      (lexemes? .outside rest).map (.quoted quote s :: ·) := by
  rw [toList_quoted_append, lexemes?, if_pos hquote, lexemes?_doubled, List.nil_append,
    lexemes?_behind hquote _ hrest, String.ofList_toList]

end Text

end TypedSql
