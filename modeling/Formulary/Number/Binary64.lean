/-!
Double precision numbers. A finite number is a sign and a code: the exponent and fraction fields
of its encoding, read together as one natural number. Magnitudes grow with their codes, and a
magnitude is a whole number of units of 2⁻¹⁰⁷⁴, so rounding to the nearest double is a comparison
of natural numbers. No arithmetic is needed here, only rounding.
-/
namespace Formulary

-- Powers of natural numbers are the core ones, also where a library brings powers of its own.
attribute [default_instance (high + 1), instance (high)] instPowNat

/-- The first code beyond the finite numbers; its magnitude would be 2¹⁰²⁴. -/
def overflowCode : Nat := 0x7ff * 2 ^ 52

inductive Binary64 where
  | nan
  | infinite (negative : Bool)
  | finite (negative : Bool) (code : Fin overflowCode)
  deriving DecidableEq, Repr

namespace Binary64

/-- Units in the number one. -/
def scale : Nat := 2 ^ 1074

/-- The magnitude of a code, in units of 2⁻¹⁰⁷⁴. -/
def units (code : Nat) : Nat :=
  if code < 2 ^ 52 then code else (2 ^ 52 + code % 2 ^ 52) * 2 ^ (code / 2 ^ 52 - 1)

/-- The code of the greatest magnitude not above a whole number of units. -/
def floorCode (u : Nat) : Nat := (u.log2 - 52) * 2 ^ 52 + u / 2 ^ (u.log2 - 52)

/-- The code nearest to a ratio of units; the even code where two are equally near. -/
def nearestCode (num den : Nat) : Nat :=
  let below := floorCode (num / den)
  let middle := (units below + units (below + 1)) * den
  if 2 * num < middle then below
  else if middle < 2 * num then below + 1
  else below + below % 2

/-- A magnitude too large for a finite number becomes infinite. -/
def ofCode (negative : Bool) (code : Nat) : Binary64 :=
  if h : code < overflowCode then .finite negative ⟨code, h⟩ else .infinite negative

def isFinite : Binary64 → Bool
  | .finite _ _ => true
  | _ => false

/-- The number of NaN is not negative. -/
def isNegative : Binary64 → Bool
  | .nan => false
  | .infinite negative | .finite negative _ => negative

/-- Numerical equality: NaN differs from itself and the zeros are equal. -/
def equals : Binary64 → Binary64 → Bool
  | .infinite a, .infinite b => a == b
  | .finite a m, .finite b n => m == n && (a == b || m.val == 0)
  | _, _ => false

/-- Some integers are too large for a double. -/
def ofInt? (n : Int) : Option Binary64 :=
  match ofCode (decide (n < 0)) (nearestCode (n.natAbs * scale) 1) with
  | .infinite _ => none
  | x => some x

end Binary64

end Formulary
