import Formulary.Number.Binary64

/-!
JSON values. The fields of an object keep the order in which they were given, and a number is a
double.
-/
namespace Formulary

inductive Json where
  | text (s : String)
  | number (x : Binary64)
  | array (items : List Json)
  | object (fields : List (String × Json))
  deriving Repr

end Formulary
