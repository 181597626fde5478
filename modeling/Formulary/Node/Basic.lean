import Formulary.Number.Binary64

/-!
Syntax trees. One type holds every node, because a node of any kind may be handed to whatever
works on trees; what comes out of parsing is narrower. Expressions are literals, references,
binary operations and calls; items are declarations and definitions, with a signature that in a
program is a prototype. An `expression` and an `item` of no further kind can be built by hand and
belong to no program.
-/
namespace Formulary

/-- A function name and its parameter names, in order and not necessarily distinct. -/
structure Prototype where
  name : String
  params : List String
  deriving DecidableEq, Repr

/-- The prototype of an item that is a bare expression. -/
def Prototype.anonymous : Prototype := ⟨"", []⟩

inductive Node where
  | literal (value : Binary64)
  | reference (name : String)
  | binary (op : String) (left right : Node)
  | call (callee : String) (args : List Node)
  | expression
  | prototype (p : Prototype)
  | declaration (signature : Node)
  | definition (signature body : Node)
  | item (signature : Node)
  deriving Repr

inductive NodeKind where
  | literal
  | reference
  | binary
  | call
  | expression
  | prototype
  | declaration
  | definition
  | item
  deriving DecidableEq, Repr

namespace NodeKind

/-- The tag a kind has in records and messages. -/
def tag : NodeKind → String
  | .literal => "literal"
  | .reference => "variable"
  | .binary => "binary"
  | .call => "call"
  | .expression => "expression"
  | .prototype => "prototype"
  | .declaration => "extern"
  | .definition => "function"
  | .item => "node"

/-- The name a kind has where nodes are displayed. -/
def title : NodeKind → String
  | .literal => "Literal"
  | .reference => "Variable"
  | .binary => "Binary"
  | .call => "Call"
  | .expression => "Expression"
  | .prototype => "Prototype"
  | .declaration => "Extern"
  | .definition => "Function"
  | .item => "ASTNode"

end NodeKind

namespace Node

def kind : Node → NodeKind
  | .literal _ => .literal
  | .reference _ => .reference
  | .binary _ _ _ => .binary
  | .call _ _ => .call
  | .expression => .expression
  | .prototype _ => .prototype
  | .declaration _ => .declaration
  | .definition _ _ => .definition
  | .item _ => .item

def isItem : Node → Bool
  | .declaration _ | .definition _ _ | .item _ => true
  | _ => false

def isExpression : Node → Bool
  | .literal _ | .reference _ | .binary _ _ _ | .call _ _ | .expression => true
  | _ => false

/-- A part that a node of some kind does not have. -/
structure MissingPart where
  kind : NodeKind
  part : String
  deriving DecidableEq, Repr

def MissingPart.message (m : MissingPart) : String :=
  "'" ++ m.kind.title ++ "' object has no attribute '" ++ m.part ++ "'"

/-- The name of a node; an item has the name of its signature. -/
def name : Node → Except MissingPart String
  | .reference name => .ok name
  | .prototype p => .ok p.name
  | .declaration s | .definition s _ | .item s => name s
  | node => .error ⟨node.kind, "name"⟩

/-- The prototype that a node is. -/
def asPrototype : Node → Except MissingPart Prototype
  | .prototype p => .ok p
  | node => node.name.bind fun _ => .error ⟨node.kind, "params"⟩

/-- A bare expression becomes a definition without name and parameters. -/
def bare (body : Node) : Node := .definition (.prototype .anonymous) body

/-- Whether a signature is that of a bare expression. -/
def isAnonymous : Node → Except MissingPart Bool
  | .prototype p => .ok (p == .anonymous)
  | node => node.name.bind fun name =>
    if name = "" then .error ⟨node.kind, "params"⟩ else .ok false

mutual

/-- Nodes are equal when they are built alike from equal names and numbers. Nodes of no further
kind are equal to nothing. -/
def equals : Node → Node → Bool
  | .literal x, .literal y => x.equals y
  | .reference a, .reference b => a == b
  | .binary op l r, .binary op' l' r' => op == op' && equals l l' && equals r r'
  | .call f as, .call g bs => f == g && equalsAll as bs
  | .prototype p, .prototype q => p == q
  | .declaration s, .declaration t => equals s t
  | .definition s a, .definition t b => equals s t && equals a b
  | _, _ => false

def equalsAll : List Node → List Node → Bool
  | [], [] => true
  | a :: as, b :: bs => equals a b && equalsAll as bs
  | _, _ => false

end

end Node

end Formulary
