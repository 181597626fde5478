import Formulary.Number.Binary64

/-!
Decimal numbers `coefficient * 10 ^ exponent`, the doubles nearest to them, and the shortest
decimal that is nearer to a given double than to any other. A decimal of one digit is tried
first, then of two, up to seventeen: on each grid only the two neighbours of the number need be
tried, and of two that both read back the nearer is taken.
-/
namespace Formulary

structure Decimal where
  coefficient : Nat
  exponent : Int
  deriving DecidableEq, Repr

namespace Decimal

def numerator (d : Decimal) : Nat := d.coefficient * 10 ^ d.exponent.toNat

def denominator (d : Decimal) : Nat := 10 ^ (-d.exponent).toNat

/-- The code of the magnitude nearest to a decimal; it may lie beyond the finite ones. -/
def code (d : Decimal) : Nat :=
  Binary64.nearestCode (d.numerator * Binary64.scale) d.denominator

def toBinary64 (negative : Bool) (d : Decimal) : Binary64 := .ofCode negative d.code

/-- Every magnitude is a decimal, since a unit is `5 ^ 1074 * 10 ^ (-1074)`. -/
def exact (code : Nat) : Decimal := ⟨Binary64.units code * 5 ^ 1074, -1074⟩

/-- The decimal digits of a natural number. -/
def digits (n : Nat) : List Char := Nat.toDigits 10 n

/-- The number of digits before the point; for numbers below a tenth, zero or less. -/
def place (units : Nat) : Int :=
  if Binary64.scale ≤ units then (digits (units / Binary64.scale)).length
  else 1 - (digits ((Binary64.scale - 1) / units)).length

/-- The greatest multiple of `10 ^ grid` not above a number of units. -/
def gridFloor (units : Nat) (grid : Int) : Nat :=
  units * 10 ^ (-grid).toNat / (Binary64.scale * 10 ^ grid.toNat)

/-- Whether a number of units is nearer to `low * 10 ^ grid` than to the next grid point;
halfway, the even neighbour is taken. -/
def nearerBelow (units low : Nat) (grid : Int) : Bool :=
  let twice := 2 * (units * 10 ^ (-grid).toNat)
  let middle := (2 * low + 1) * (Binary64.scale * 10 ^ grid.toNat)
  decide (twice < middle) || (decide (twice = middle) && low % 2 == 0)

/-- A grid point of the given number of digits, where ten to that power is a one. -/
def ofGrid (count coefficient : Nat) (grid : Int) : Decimal :=
  if coefficient = 10 ^ count then ⟨1, grid + count⟩ else ⟨coefficient, grid⟩

/-- The nearest decimal of the given number of digits, if it reads back as the code. -/
def candidate? (code count : Nat) : Option Decimal :=
  let units := Binary64.units code
  let grid := place units - count
  let low := gridFloor units grid
  let below := ofGrid count low grid
  let above := ofGrid count (low + 1) grid
  if below.code = code then
    if above.code = code then some (if nearerBelow units low grid then below else above)
    else some below
  else if above.code = code then some above
  else none

/-- Tries as many digit counts as asked for, from `count` on. -/
def shortestFrom (code : Nat) : Nat → Nat → Decimal
  | 0, _ => exact code
  | tries + 1, count => (candidate? code count).getD (shortestFrom code tries (count + 1))

/-- The shortest decimal that reads back as the magnitude of a code. -/
def shortest (code : Nat) : Decimal :=
  if code = 0 then ⟨0, 0⟩ else shortestFrom code 17 1

end Decimal

end Formulary
