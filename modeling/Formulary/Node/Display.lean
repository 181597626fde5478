import Formulary.Node.Basic
import Formulary.Number.Spelling
import Formulary.Text.Quoted

/-!
The display of a node names its kind and, in parentheses, its parts. Names are quoted and numbers
have the fewest digits that read back, so the display tells different nodes apart.
-/
namespace Formulary

def commaJoined (parts : List String) : String := String.intercalate ", " parts

/-- A list of displays in square brackets. -/
def bracketed (parts : List String) : String := "[" ++ commaJoined parts ++ "]"

def Prototype.display (p : Prototype) : String :=
  "Prototype(" ++ quoted p.name ++ ", " ++ bracketed (p.params.map quoted) ++ ")"

namespace Node

mutual

def display : Node → String
  | .literal x => "Literal(" ++ x.display ++ ")"
  | .reference name => "Variable(" ++ quoted name ++ ")"
  | .binary op l r => "Binary(" ++ quoted op ++ ", " ++ display l ++ ", " ++ display r ++ ")"
  | .call f args => "Call(" ++ quoted f ++ ", " ++ bracketed (displayAll args) ++ ")"
  | .expression => "Expression()"
  | .prototype p => p.display
  | .declaration s => "Extern(" ++ display s ++ ")"
  | .definition s body => "Function(" ++ display s ++ ", " ++ display body ++ ")"
  | .item s => "ASTNode(" ++ display s ++ ")"

def displayAll : List Node → List String
  | [] => []
  | a :: as => display a :: displayAll as

end

end Node

end Formulary
