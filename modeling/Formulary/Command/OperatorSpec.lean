import Formulary.Number.Reading
import Formulary.Text.Quoted

/-!
An operator on the command line: a symbol, an equals sign and its power. Whether the symbol can
be an operator and the power is not negative is left to the table it goes into.
-/
namespace Formulary

inductive SpecFault where
  | malformed (spec : String)
  | notAnInteger (power : String)
  deriving DecidableEq, Repr

def SpecFault.message : SpecFault → String
  | .malformed spec => "expected SYM=PREC, got " ++ quoted spec
  | .notAnInteger power => "precedence must be an integer, got " ++ quoted power

/-- Reads a symbol and its power; the first equals sign divides them. -/
def readOperatorSpec (spec : String) : Except SpecFault (Char × Int) :=
  match spec.toList.takeWhile (· != '='), spec.toList.dropWhile (· != '=') with
  | [symbol], _ :: power =>
    match readInteger? (String.ofList power) with
    | some n => .ok (symbol, n)
    | none => .error (.notAnInteger (String.ofList power))
  | _, _ => .error (.malformed spec)

end Formulary
