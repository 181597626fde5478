import Formulary.Number.Decimal
import Formulary.Text.Blank
import Formulary.Text.Digit

/-!
Numbers read from text. A numeral of the language is decimal digits of any script with at most
one point. Free number text, as it comes from outside, may also have white space around it, a
sign, an exponent, the words for infinity and NaN, and single underscores between digits.
-/
namespace Formulary

/-- The number a run of decimal digits stands for. -/
def digitsValue (cs : List Char) : Nat := cs.foldl (fun n c => 10 * n + (digitValue? c).getD 0) 0

/-- The decimal a numeral stands for: the digits after the point lower the exponent. -/
def Decimal.ofNumeral (cs : List Char) : Decimal :=
  let whole := cs.takeWhile (· != '.')
  let fraction := (cs.dropWhile (· != '.')).drop 1
  ⟨digitsValue (whole ++ fraction), -(fraction.length : Int)⟩

def Binary64.ofNumeral (cs : List Char) : Binary64 := (Decimal.ofNumeral cs).toBinary64 false

namespace FreeNumber

/-- White space outside ASCII counts as a space, and digits as the ASCII digits of their value. -/
def normal (c : Char) : Char :=
  if c.toNat < 0x7f then c
  else if isBlank c then ' '
  else match digitValue? c with
    | some n => Nat.digitChar n
    | none => c

/-- Space, tab, line feed, vertical tab, form feed and carriage return. -/
def isPadding (c : Char) : Bool := c == ' ' || (9 ≤ c.toNat && c.toNat ≤ 13)

def trim (cs : List Char) : List Char :=
  ((cs.dropWhile isPadding).reverse.dropWhile isPadding).reverse

def isAsciiDigit (c : Char) : Bool := '0' ≤ c && c ≤ '9'

/-- Drops underscores, each of which must stand between two digits. -/
def joinDigits (afterDigit : Bool) : List Char → Option (List Char)
  | [] => some []
  | '_' :: c :: rest =>
    if afterDigit && isAsciiDigit c then (joinDigits true rest).map (c :: ·) else none
  | c :: rest => if c == '_' then none else (joinDigits (isAsciiDigit c) rest).map (c :: ·)

/-- A leading sign; true for minus. -/
def sign : List Char → Bool × List Char
  | '-' :: rest => (true, rest)
  | '+' :: rest => (false, rest)
  | cs => (false, cs)

/-- A whole number with an optional sign. -/
def signed? (cs : List Char) : Option Int :=
  let (negative, ds) := sign cs
  if ds ≠ [] ∧ ds.all isAsciiDigit then
    some (if negative then -(digitsValue ds : Int) else digitsValue ds)
  else none

/-- Digits with at most one point, and at least one digit. -/
def mantissa? (cs : List Char) : Option Decimal :=
  let whole := cs.takeWhile isAsciiDigit
  let tail := cs.dropWhile isAsciiDigit
  let fraction := tail.drop 1
  if tail = [] then if whole = [] then none else some ⟨digitsValue whole, 0⟩
  else if tail.head? = some '.' ∧ fraction.all isAsciiDigit ∧ whole ++ fraction ≠ [] then
    some ⟨digitsValue (whole ++ fraction), -(fraction.length : Int)⟩
  else none

/-- The nearest double; exponents far out of range are not multiplied out. -/
def scaled (negative : Bool) (d : Decimal) : Binary64 :=
  let reach : Int := d.coefficient.log2 + 1
  if d.coefficient = 0 ∨ d.exponent + reach < -400 then .ofCode negative 0
  else if 400 < d.exponent then .infinite negative
  else d.toBinary64 negative

def magnitude? (negative : Bool) (cs : List Char) : Option Binary64 :=
  let isExponentMark (c : Char) : Bool := c == 'e' || c == 'E'
  match mantissa? (cs.takeWhile (!isExponentMark ·)), cs.dropWhile (!isExponentMark ·) with
  | some d, [] => some (scaled negative d)
  | some d, _ :: e => (signed? e).map fun n => scaled negative ⟨d.coefficient, d.exponent + n⟩
  | none, _ => none

def word? (negative : Bool) (cs : List Char) : Option Binary64 :=
  match String.ofList (cs.map Char.toLower) with
  | "inf" | "infinity" => some (.infinite negative)
  | "nan" => some .nan
  | _ => none

end FreeNumber

open FreeNumber in
/-- A double from free number text. -/
def Binary64.read? (text : String) : Option Binary64 :=
  (joinDigits false (trim (text.toList.map normal))).bind fun cs =>
    let (negative, body) := sign cs
    (word? negative body).or (magnitude? negative body)

/-- Integers of more digits than this are not read. -/
def integerDigitLimit : Nat := 4300

open FreeNumber in
/-- An integer from free number text. -/
def readInteger? (text : String) : Option Int :=
  (joinDigits false (trim (text.toList.map normal))).bind fun cs =>
    if (sign cs).2.length ≤ integerDigitLimit then signed? cs else none

end Formulary
