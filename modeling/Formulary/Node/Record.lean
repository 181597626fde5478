import Formulary.Json.Basic
import Formulary.Node.Basic

/-!
The record of a node is an object that names its kind and then its parts. Nodes of no further
kind have no record, nor has any node that holds one.
-/
namespace Formulary

def Prototype.record (p : Prototype) : Json :=
  .object [("kind", .text "prototype"), ("name", .text p.name),
    ("params", .array (p.params.map .text))]

namespace Node

mutual

def record? : Node → Option Json
  | .literal x => some (.object [("kind", .text "literal"), ("value", .number x)])
  | .reference name => some (.object [("kind", .text "variable"), ("name", .text name)])
  | .binary op l r => do
    some (.object [("kind", .text "binary"), ("op", .text op), ("left", ← record? l),
      ("right", ← record? r)])
  | .call f args => do
    some (.object [("kind", .text "call"), ("callee", .text f), ("args", .array (← records? args))])
  | .expression => none
  | .prototype p => some p.record
  | .declaration s => do
    some (.object [("kind", .text "extern"), ("prototype", ← record? s)])
  | .definition s body => do
    some (.object [("kind", .text "function"), ("prototype", ← record? s),
      ("body", ← record? body)])
  | .item _ => none

def records? : List Node → Option (List Json)
  | [] => some []
  | a :: as => do some ((← record? a) :: (← records? as))

end

end Node

end Formulary
