import Formulary.Node.Display
import Formulary.Number.Spelling

/-!
Canonical source text. Numbers are written in positional notation, and an operand that is itself
a binary operation stands in parentheses, so the text reads back as the same tree whatever powers
the operators have. The language has no text for negative numbers, infinities and NaN.
-/
namespace Formulary

inductive PrintFault where
  | notFinite (value : Binary64)
  | negative (value : Binary64)
  | notAnExpression (kind : NodeKind)
  /-- A node without a part that printing needs. -/
  | missing (part : Node.MissingPart)
  deriving DecidableEq, Repr

def PrintFault.message : PrintFault → String
  | .notFinite value => "Cannot emit non-finite literal: " ++ value.display
  | .negative value => "Cannot emit negative literal: " ++ value.display
  | .notAnExpression kind => "No emitter for expression kind '" ++ kind.tag ++ "'"
  | .missing part => part.message

/-- The text of a number, as the language reads it. -/
def Binary64.source : Binary64 → Except PrintFault String
  | .finite false code => .ok (String.ofList (Decimal.shortest code.val).positional)
  | .finite true code => .error (.negative (.finite true code))
  | x => .error (.notFinite x)

def Prototype.source (p : Prototype) : String := p.name ++ "(" ++ commaJoined p.params ++ ")"

namespace Node

def isBinary : Node → Bool
  | .binary _ _ _ => true
  | _ => false

/-- The text of a node where it is an operand. -/
def enclosed (node : Node) (text : String) : String :=
  if node.isBinary then "(" ++ text ++ ")" else text

mutual

/-- The text of an expression. -/
def source : Node → Except PrintFault String
  | .literal x => x.source
  | .reference name => .ok name
  | .binary op l r => do
    let left ← source l
    let right ← source r
    return enclosed l left ++ " " ++ op ++ " " ++ enclosed r right
  | .call f args => do return f ++ "(" ++ commaJoined (← sources args) ++ ")"
  | .expression => .error (.notAnExpression .expression)
  | .prototype _ => .error (.notAnExpression .prototype)
  | .declaration _ => .error (.notAnExpression .declaration)
  | .definition _ _ => .error (.notAnExpression .definition)
  | .item _ => .error (.notAnExpression .item)

def sources : List Node → Except PrintFault (List String)
  | [] => .ok []
  | a :: as => do return (← source a) :: (← sources as)

end

/-- The text of an expression where it is an operand. -/
def operandSource (node : Node) : Except PrintFault String := return node.enclosed (← node.source)

end Node

/-- The text of a signature. -/
def signatureSource (signature : Node) : Except PrintFault String :=
  (signature.asPrototype.map Prototype.source).mapError .missing

/-- The line of a declaration. -/
def declarationLine (signature : Node) : Except PrintFault String := do
  return "extern " ++ (← signatureSource signature) ++ ";"

/-- The line of a definition; that of a bare expression is its body. -/
def definitionLine (signature body : Node) : Except PrintFault String := do
  let text ← body.source
  if ← signature.isAnonymous.mapError .missing then return text ++ ";"
  else return "def " ++ (← signatureSource signature) ++ " " ++ text ++ ";"

end Formulary
