/-! Binary64 numbers, held by their bits. Nothing here computes with machine floats: a number is
read as an exact fraction, and a fraction is rounded to the nearest number. -/

namespace TypedSql

/-- A binary64 number. -/
structure Double where
  bits : UInt64
  deriving DecidableEq, Inhabited

namespace Double

/-- Whether the sign bit is set. Zero and not-a-number have a sign too. -/
def isNegative (x : Double) : Bool :=
  Nat.pow 2 63 ≤ x.bits.toNat

/-- The eleven bits of the biased exponent. -/
def biasedExponent (x : Double) : Nat :=
  x.bits.toNat / Nat.pow 2 52 % Nat.pow 2 11

/-- The low 52 bits. -/
def fraction (x : Double) : Nat :=
  x.bits.toNat % Nat.pow 2 52

def isFinite (x : Double) : Bool :=
  x.biasedExponent < 2047

def isNaN (x : Double) : Bool :=
  x.biasedExponent == 2047 && x.fraction != 0

/-- The integer `m` of the magnitude `m * 2 ^ q` of a finite number. -/
def significand (x : Double) : Nat :=
  if x.biasedExponent = 0 then x.fraction else Nat.pow 2 52 + x.fraction

/-- The power `q` of the magnitude `m * 2 ^ q` of a finite number. -/
def power (x : Double) : Int :=
  max x.biasedExponent 1 - 1075

def isZero (x : Double) : Bool :=
  x.biasedExponent == 0 && x.fraction == 0

/-- The comparison of numbers: both zeros are equal, and not-a-number equals nothing. -/
def equals (x y : Double) : Bool :=
  !x.isNaN && !y.isNaN && (x.bits == y.bits || x.isZero && y.isZero)

instance : BEq Double := ⟨equals⟩

/-- The magnitude of a finite number as a numerator and a denominator. -/
def quotient (x : Double) : Nat × Nat :=
  if 0 ≤ x.power then (x.significand * Nat.pow 2 x.power.toNat, 1)
  else (x.significand, Nat.pow 2 (-x.power).toNat)

/-- `num / den` in units of `2 ^ q`, again as a numerator and a denominator. -/
def inUnits (num den : Nat) (q : Int) : Nat × Nat :=
  if 0 ≤ q then (num, den * Nat.pow 2 q.toNat) else (num * Nat.pow 2 (-q).toNat, den)

/-- The nearest integer to a fraction, a half going to the even neighbour. -/
def roundEven (num den : Nat) : Nat :=
  let low := num / den
  let rest := num % den
  if den < 2 * rest ∨ 2 * rest = den ∧ low % 2 = 1 then low + 1 else low

/-- The power of two that a fraction is rounded in: the one that leaves 53 binary digits, and never
less than the smallest one. -/
def roundingPower (num den : Nat) : Int :=
  let q : Int := (num.log2 : Int) - den.log2 - 52
  let (n, d) := inUnits num den q
  max (if n < Nat.pow 2 52 * d then q - 1 else q) (-1074)

/-- The number nearest to `num / den`, a tie going to the even significand. A fraction beyond the
largest number gives infinity. -/
def ofQuotient (num den : Nat) : Double :=
  if num = 0 then ⟨0⟩ else
    let q := roundingPower num den
    let (n, d) := inUnits num den q
    let m := roundEven n d
    let bits := if m < Nat.pow 2 52 then m else (q + 1074).toNat * Nat.pow 2 52 + m
    ⟨UInt64.ofNat (min bits (2047 * Nat.pow 2 52))⟩

/-- The number nearest to an integer. -/
def ofNat (n : Nat) : Double :=
  ofQuotient n 1

/-- The number with the other sign. -/
def negate (x : Double) : Double :=
  ⟨x.bits ^^^ 0x8000000000000000⟩

/-- The rounded product of the magnitudes of two finite numbers. -/
def times (x y : Double) : Double :=
  ofQuotient (x.quotient.1 * y.quotient.1) (x.quotient.2 * y.quotient.2)

/-- The rounded quotient of the magnitudes of two finite numbers, the second one not zero. -/
def dividedBy (x y : Double) : Double :=
  ofQuotient (x.quotient.1 * y.quotient.2) (x.quotient.2 * y.quotient.1)

/-- The bits as sixteen hexadecimal digits. Not-a-number is only named, since its bits say nothing. -/
def hex (x : Double) : String :=
  if x.isNaN then "NaN"
  else
    let digits := Nat.toDigits 16 x.bits.toNat
    String.ofList (List.replicate (16 - digits.length) '0' ++ digits)

/-- The number of the bits that hexadecimal digits denote. -/
def ofHex (s : String) : Double :=
  let digit (c : Char) : Nat :=
    if c.isDigit then c.toNat - '0'.toNat else c.toLower.toNat - 'a'.toNat + 10
  ⟨UInt64.ofNat (s.toList.foldl (fun n c => 16 * n + digit c) 0)⟩

end Double

end TypedSql
