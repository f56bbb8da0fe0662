import TypedSql.Decimal.Shortest

/-! Written forms of binary64 numbers. All of them print the shortest decimal that reads back; a
`NumberFormat` says where they differ.

`NumberFormat.json` is the form that the package `serde_json` prints without its option of arbitrary
precision. That package is a dependency and not part of the repository; what it prints is defined
here. -/

namespace TypedSql

/-- The decisions of a written form of numbers. -/
structure NumberFormat where
  /-- Which of two equally near shortest decimals is printed. -/
  tie : Tie
  /-- The powers of ten of the leading digit for which no exponent is written. -/
  positional : Int → Bool
  /-- Whether a whole number without an exponent ends in `.0`. -/
  pointZero : Bool
  /-- Whether a positive exponent has a sign. -/
  plusSign : Bool

namespace NumberFormat

/-- SQL text: never an exponent, and no point in a whole number. -/
def sql : NumberFormat := ⟨.up, fun _ => true, false, false⟩

/-- JSON: an exponent below `0.00001` and from `1e+16` on, always signed. -/
def json : NumberFormat := ⟨.even, fun e => -5 ≤ e && e ≤ 15, true, true⟩

/-- Logs: an exponent below `0.0001` and from `1e16` on, signed only when it is negative. -/
def log : NumberFormat := ⟨.up, fun e => -4 ≤ e && e ≤ 15, true, false⟩

end NumberFormat

namespace Decimal

/-- The digits as characters. -/
def text (d : Decimal) : List Char :=
  Nat.toDigits 10 d.digits

/-- The power of ten of the leading digit. -/
def scientificExponent (d : Decimal) : Int :=
  d.exponent + (d.text.length - 1 : Nat)

/-- The decimal without an exponent. -/
def positional (pointZero : Bool) (d : Decimal) : String :=
  let digits := d.text
  if 0 ≤ d.exponent then
    String.ofList (digits ++ List.replicate d.exponent.toNat '0') ++ (if pointZero then ".0" else "")
  else if 0 ≤ d.scientificExponent then
    let whole := d.scientificExponent.toNat + 1
    String.ofList (digits.take whole ++ '.' :: digits.drop whole)
  else
    String.ofList ('0' :: '.' :: (List.replicate (-d.scientificExponent - 1).toNat '0' ++ digits))

/-- The decimal with one digit before the point, and an exponent. -/
def scientific (plusSign : Bool) (d : Decimal) : String :=
  let mantissa := match d.text with
    | first :: second :: more => first :: '.' :: second :: more
    | digits => digits
  let e := d.scientificExponent
  let sign := if e < 0 then "-" else if plusSign then "+" else ""
  String.ofList mantissa ++ "e" ++ sign ++ toString e.natAbs

/-- The decimal in the given format. -/
def write (form : NumberFormat) (d : Decimal) : String :=
  if form.positional d.scientificExponent then d.positional form.pointZero
  else d.scientific form.plusSign

end Decimal

/-- A number in the given format. Infinities keep their sign, and not-a-number has none. -/
def Double.write (form : NumberFormat) (x : Double) : String :=
  if x.isNaN then "NaN"
  else
    (if x.isNegative then "-" else "") ++
      (if x.isFinite then (x.shortest form.tie).write form else "inf")

end TypedSql
