import TypedSql.Double

/-! The shortest decimal that reads back as a given binary64 number. The points `d * 10 ^ u` for a
fixed `u` are a grid; the coarsest grid with a point that rounds to the number wins, and of two such
points the nearer one. -/

namespace TypedSql

/-- The decimal `digits * 10 ^ exponent`. -/
structure Decimal where
  digits : Nat
  exponent : Int
  deriving DecidableEq, Inhabited

/-- Which of two equally near points is taken. -/
inductive Tie where
  | up
  | even
  deriving DecidableEq

namespace Double

/-- Four times the significand, so that the ends of the rounding interval are whole. -/
def quarters (x : Double) : Nat :=
  4 * x.significand

/-- The lower end of the interval that rounds to the number, in the unit of `quarters`. Below a
power of two the next number is only half as far away. -/
def lowEnd (x : Double) : Nat :=
  if x.fraction = 0 ∧ 1 < x.biasedExponent then x.quarters - 1 else x.quarters - 2

/-- The upper end of the interval that rounds to the number, in the unit of `quarters`. -/
def highEnd (x : Double) : Nat :=
  x.quarters + 2

/-- The factors `(a, b)` for which `k` quarters equal `k * a / b` grid steps of `10 ^ u`. -/
def gridFactors (x : Double) (u : Int) : Nat × Nat :=
  let q := x.power - 2
  (Nat.pow 2 q.toNat * Nat.pow 10 (-u).toNat, Nat.pow 2 (-q).toNat * Nat.pow 10 u.toNat)

/-- Whether the grid point `d` of `10 ^ u` rounds to the number. The ends of the interval do so
when the significand is even. -/
def reads (x : Double) (u : Int) (d : Nat) : Bool :=
  let (a, b) := x.gridFactors u
  if x.significand % 2 = 0 then x.lowEnd * a ≤ d * b && d * b ≤ x.highEnd * a
  else x.lowEnd * a < d * b && d * b < x.highEnd * a

/-- The best point of the grid of `10 ^ u`: one of the two neighbours of the number. -/
def gridPoint? (tie : Tie) (x : Double) (u : Int) : Option Nat :=
  let (a, b) := x.gridFactors u
  let low := x.quarters * a / b
  let below := x.quarters * a - low * b
  let above := (low + 1) * b - x.quarters * a
  match x.reads u low, x.reads u (low + 1) with
  | false, false => none
  | true, false => some low
  | false, true => some (low + 1)
  | true, true =>
    if below < above then some low
    else if above < below then some (low + 1)
    else match tie with
      | .up => some (low + 1)
      | .even => some (if low % 2 = 0 then low else low + 1)

/-- The exponents of the grids, from the coarsest: above the largest number down to the power in
which every number is whole. -/
def gridExponents : List Int :=
  (List.range 1384).map fun (i : Nat) => (309 - i : Int)

/-- The shortest decimal for the magnitude of a finite number other than zero. -/
def shortest (tie : Tie) (x : Double) : Decimal :=
  if x.isZero then ⟨0, 0⟩ else
    (gridExponents.findSome? fun u => (x.gridPoint? tie u).map (Decimal.mk · u)).getD ⟨0, 0⟩

end Double

end TypedSql
