import TypedSql.Decimal.Format

/-! JSON values as far as bound values need them, and the reading of JSON numbers. A text is first
read by the grammar of numbers alone, and the numeral is then given its value.

Numbers are read as the package `serde_json` reads them without its option of arbitrary precision: the
leading digits that fit 64 bits are rounded, and then scaled by a rounded power of ten. That package is
a dependency and not part of the repository; what it does is defined here. -/

namespace TypedSql

/-- The parts of a number in JSON notation, as they stand in the text. -/
structure Numeral where
  negative : Bool
  whole : List Char
  /-- The digits after the point, if there is one. -/
  fraction : Option (List Char)
  /-- Whether the exponent is negative, and its digits, if there is one. -/
  exponent : Option (Bool × List Char)
  deriving DecidableEq

namespace Numeral

/-- JSON's white space. -/
def isBlank (c : Char) : Bool :=
  c == ' ' || c == '\t' || c == '\n' || c == '\r'

/-- Splits leading digits off. There must be at least one. -/
def digits? (cs : List Char) : Option (List Char × List Char) :=
  match cs.span Char.isDigit with
  | ([], _) => none
  | (ds, rest) => some (ds, rest)

/-- The whole part: digits without a leading zero, or a single zero. -/
def whole? (cs : List Char) : Option (List Char × List Char) :=
  match digits? cs with
  | some ('0' :: _ :: _, _) => none
  | other => other

/-- The fraction, if a point follows. -/
def fraction? : List Char → Option (Option (List Char) × List Char)
  | '.' :: cs => (digits? cs).map fun (ds, rest) => (some ds, rest)
  | cs => some (none, cs)

/-- The sign and the digits of an exponent. -/
def signedDigits? : List Char → Option ((Bool × List Char) × List Char)
  | '+' :: cs => (digits? cs).map fun (ds, rest) => ((false, ds), rest)
  | '-' :: cs => (digits? cs).map fun (ds, rest) => ((true, ds), rest)
  | cs => (digits? cs).map fun (ds, rest) => ((false, ds), rest)

/-- The exponent, if its letter follows. -/
def exponent? : List Char → Option (Option (Bool × List Char) × List Char)
  | c :: cs =>
    if c = 'e' ∨ c = 'E' then (signedDigits? cs).map fun (e, rest) => (some e, rest)
    else some (none, c :: cs)
  | [] => some (none, [])

/-- The sign: a minus or nothing. -/
def sign : List Char → Bool × List Char
  | '-' :: cs => (true, cs)
  | cs => (false, cs)

/-- Reads one number with blanks around it and nothing else. -/
def read? (text : List Char) : Option Numeral := do
  let (negative, rest) := sign (text.dropWhile isBlank)
  let (whole, rest) ← whole? rest
  let (fraction, rest) ← fraction? rest
  let (exponent, rest) ← exponent? rest
  if rest.all isBlank then some ⟨negative, whole, fraction, exponent⟩ else none

/-- The value of a digit. -/
def digitValue (c : Char) : Nat :=
  c.toNat - '0'.toNat

/-- The number that digits denote. -/
def natValue (ds : List Char) : Nat :=
  ds.foldl (fun n c => 10 * n + digitValue c) 0

/-- Appends digits to a number as long as it stays below `2 ^ 64`, and gives back the digits that
are left over from the first one that does not fit. -/
def absorb (n : Nat) : List Char → Nat × List Char
  | [] => (n, [])
  | c :: cs =>
    if 10 * n + digitValue c < Nat.pow 2 64 then absorb (10 * n + digitValue c) cs else (n, c :: cs)

/-- The exponent's value. -/
def exponentValue : Option (Bool × List Char) → Int
  | none => 0
  | some (negative, ds) => if negative then -(natValue ds : Int) else natValue ds

/-- The leading digits that fit 64 bits, as an integer, and the power of ten to scale it by. Digits
of the whole part that do not fit count into the power, and those of the fraction are dropped. -/
def scaled (n : Numeral) : Nat × Int :=
  let (m, left) := absorb 0 n.whole
  let fraction := n.fraction.getD []
  let (m, dropped) := absorb m fraction
  (m, left.length - (fraction.length - dropped.length : Nat) + exponentValue n.exponent)

/-- Divides by `10 ^ k`, in steps of at most `10 ^ 308` until nothing is left. -/
def divideByPower (x : Double) (k : Nat) : Double :=
  if k ≤ 308 then x.dividedBy (.ofNat (Nat.pow 10 k))
  else if x.isZero then x
  else divideByPower (x.dividedBy (.ofNat (Nat.pow 10 308))) (k - 308)
termination_by k

/-- The number nearest to the leading digits, multiplied or divided by the power of ten, which
rounds again. There is none if it would be infinite. -/
def magnitude? (n : Numeral) : Option Double :=
  let (m, k) := n.scaled
  let x := Double.ofNat m
  if k < 0 then some (divideByPower x (-k).toNat)
  else if x.isZero then some x
  else if 308 < k then none
  else
    let y := x.times (.ofNat (Nat.pow 10 k.toNat))
    if y.isFinite then some y else none

end Numeral

/-- A JSON number, kept as an integer or as a float. -/
inductive JsonNumber where
  | integer (n : Int)
  | float (x : Double)

namespace JsonNumber

/-- The integer of a numeral without fraction and exponent, if it is one of 64 bits: unsigned, or
signed when there is a minus. Negative zero is not an integer. -/
def integer? (n : Numeral) : Option Int :=
  if n.fraction.isSome || n.exponent.isSome then none
  else
    let v := Numeral.natValue n.whole
    if n.negative then if 0 < v ∧ v ≤ Nat.pow 2 63 then some (-(v : Int)) else none
    else if v < Nat.pow 2 64 then some v else none

/-- The value of a numeral: an integer where it can be one, and else a float. -/
def ofNumeral? (n : Numeral) : Option JsonNumber :=
  match integer? n with
  | some v => some (integer v)
  | none => (Numeral.magnitude? n).map fun x => float (if n.negative then x.negate else x)

/-- Reads a text as one JSON number. -/
def ofText? (text : String) : Option JsonNumber :=
  (Numeral.read? text.toList).bind ofNumeral?

/-- The printed form. -/
def text : JsonNumber → String
  | integer n => toString n
  | float x => x.write .json

end JsonNumber

/-- The JSON values that bound values take. -/
inductive JsonValue where
  | null
  | bool (b : Bool)
  | string (s : String)
  | number (n : JsonNumber)

end TypedSql
