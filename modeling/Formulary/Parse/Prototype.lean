import Formulary.Node.Basic
import Formulary.Parse.Machine

/-!
Prototypes: a name and, in parentheses, parameter names with commas between them.
-/
namespace Formulary

inductive PrototypeReading where
  /-- The name of the function must follow. -/
  | start
  | opening (name : String)
  /-- The first parameter follows, or the end of the prototype. -/
  | firstParam (name : String)
  /-- Another parameter must follow. -/
  | param (name : String) (params : List String)
  /-- A parameter has been read. -/
  | afterParam (name : String) (params : List String)
  | complete (p : Prototype)
  deriving DecidableEq, Repr

namespace PrototypeReading

def step (r : PrototypeReading) (t : Token) : Move PrototypeReading Fault Prototype :=
  match r, t.kind with
  | .start, .name => .shift (.opening t.value.plain)
  | .opening name, .opening => .shift (.firstParam name)
  | .firstParam name, .closing => .shift (.complete ⟨name, []⟩)
  | .firstParam name, .name => .shift (.afterParam name [t.value.plain])
  | .param name params, .name => .shift (.afterParam name (params ++ [t.value.plain]))
  | .afterParam name params, .comma => .shift (.param name params)
  | .afterParam name params, .closing => .shift (.complete ⟨name, params⟩)
  | .complete p, _ => .finish p
  | _, _ => .refuse (.unexpectedToken t)

def atEnd : PrototypeReading → Except Fault Prototype
  | .complete p => .ok p
  | _ => .error .unexpectedEnd

def machine : Machine PrototypeReading Fault Prototype := ⟨step, atEnd⟩

end PrototypeReading

end Formulary
