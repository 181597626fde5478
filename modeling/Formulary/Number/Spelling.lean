import Formulary.Number.Decimal

/-!
How numbers are written. Positional notation has digits on both sides of the point. The display
of a double has the fewest digits that read back, in positional notation from 10⁻⁴ up to 10¹⁶ and
with an exponent of at least two digits elsewhere.
-/
namespace Formulary

namespace Decimal

/-- The power of ten of the first digit, plus one. -/
def point (d : Decimal) : Int := (digits d.coefficient).length + d.exponent

def positional (d : Decimal) : List Char :=
  let ds := digits d.coefficient
  let whole := d.point.toNat
  if d.point ≤ 0 then '0' :: '.' :: (List.replicate (-d.point).toNat '0' ++ ds)
  else if ds.length ≤ whole then ds ++ List.replicate (whole - ds.length) '0' ++ ['.', '0']
  else ds.take whole ++ '.' :: ds.drop whole

/-- An exponent has a sign and at least two digits. -/
def exponentText (e : Int) : List Char :=
  let ds := digits e.natAbs
  'e' :: (if e < 0 then '-' else '+') :: (if ds.length < 2 then '0' :: ds else ds)

def scientific (d : Decimal) : List Char :=
  match digits d.coefficient with
  | [] => []
  | [c] => c :: exponentText (d.point - 1)
  | c :: cs => c :: '.' :: cs ++ exponentText (d.point - 1)

/-- Positional when the first digit stands for `10 ^ (-4)` up to `10 ^ 15`. -/
def display (d : Decimal) : List Char :=
  if d.point < -3 ∨ 16 < d.point then d.scientific else d.positional

end Decimal

def Binary64.displayChars : Binary64 → List Char
  | .nan => ['n', 'a', 'n']
  | .infinite negative => (if negative then ['-'] else []) ++ ['i', 'n', 'f']
  | .finite negative code =>
    (if negative then ['-'] else []) ++ (Decimal.shortest code.val).display

def Binary64.display (x : Binary64) : String := String.ofList x.displayChars

/-- An integer in decimal. -/
def integerText (n : Int) : String :=
  (if n < 0 then "-" else "") ++ String.ofList (Decimal.digits n.natAbs)

end Formulary
