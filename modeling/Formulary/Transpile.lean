import Formulary.Json.Text
import Formulary.Node.Record
import Formulary.Parse.Program
import Formulary.Print

/-!
Programs to text. An emitter keeps what it has made of the items it was given and renders all of
it on demand. There is one for source text, with a line per item, and one for JSON, with a record
per item; others can be put in their place. A list of nodes is checked before any of it is
emitted, and an item that cannot be emitted leaves what was kept before it.
-/
namespace Formulary

inductive TranspileFault where
  | parse (fault : Fault)
  | print (fault : PrintFault)
  | json (fault : Json.Unwritable)
  /-- A node without record. -/
  | noRecord
  /-- An entry of a program that is no item. -/
  | notAnItem (index : Nat) (kind : NodeKind)
  /-- An item that the emitter has no way to emit. -/
  | unsupported (emitter : String) (kind : NodeKind) (name : String)
  | unknownTarget (target : String)
  | noTarget
  deriving DecidableEq, Repr

def TranspileFault.message : TranspileFault → String
  | .parse fault => fault.message
  | .print fault => fault.message
  | .json fault => fault.message
  | .noRecord => ""
  | .notAnItem index kind =>
    "Item " ++ integerText index ++ " is a " ++ kind.title ++ ", expected an ASTNode"
  | .unsupported emitter kind name =>
    emitter ++ " cannot emit node kind '" ++ kind.tag ++ "' (" ++ quoted name ++ ")"
  | .unknownTarget target =>
    "Unknown transpilation target: " ++ quoted target ++ " (expected one of json, ks, source)"
  | .noTarget => "Either a target or an emitter is required"

inductive Target where
  | source
  | json
  deriving DecidableEq, Repr

namespace Target

def name : Target → String
  | .source => "source"
  | .json => "json"

/-- Lower case, as far as it can make a letter of a target's name: besides the capital letters
only the Kelvin sign becomes one. -/
def lowered (c : Char) : Char := if c = '\u212a' then 'k' else c.toLower

def trimmed (text : List Char) : List Char :=
  ((text.dropWhile isBlank).reverse.dropWhile isBlank).reverse

/-- Targets are named in any case, with white space around them or not. -/
def ofName (text : String) : Except TranspileFault Target :=
  match String.ofList ((trimmed text.toList).map lowered) with
  | "source" | "ks" => .ok .source
  | "json" => .ok .json
  | _ => .error (.unknownTarget text)

end Target

/-- A way to emit items: what is kept, how an item adds to it if items of its kind can be emitted
at all, and how all that is kept is rendered. -/
structure Emitter (κ : Type) where
  title : String
  emit? : Node → Option (κ → Except TranspileFault κ)
  render : κ → Except TranspileFault String

namespace Emitter

def addLine (line : Except PrintFault String) (lines : List String) :
    Except TranspileFault (List String) :=
  (line.mapError .print).map (lines ++ [·])

def addRecord (node : Node) (records : List Json) : Except TranspileFault (List Json) :=
  match node.record? with
  | some record => .ok (records ++ [record])
  | none => .error .noRecord

/-- Lines of source text. -/
def source : Emitter (List String) where
  title := "SourceEmitter"
  emit?
    | .declaration s => some (addLine (declarationLine s))
    | .definition s body => some (addLine (definitionLine s body))
    | .prototype _ => some .ok
    | _ => none
  render lines := .ok (String.intercalate "\n" lines)

/-- Records in one JSON array. -/
def json (indent : Option Int) : Emitter (List Json) where
  title := "JsonEmitter"
  emit?
    | .declaration s => some (addRecord (.declaration s))
    | .definition s body => some (addRecord (.definition s body))
    | _ => none
  render records := (Json.write indent (.array records)).mapError .json

variable {κ : Type}

/-- Emits one item. -/
def emitNode (e : Emitter κ) (node : Node) (kept : κ) : Except TranspileFault κ :=
  match e.emit? node with
  | some emit => emit kept
  | none => match node.name with
    | .ok name => .error (.unsupported e.title node.kind name)
    | .error part => .error (.print (.missing part))

/-- Emits items in order, up to the first that fails, and keeps what was emitted before it. -/
def emitAll (e : Emitter κ) : List Node → κ → Except TranspileFault Unit × κ
  | [], kept => (.ok (), kept)
  | node :: nodes, kept =>
    match e.emitNode node kept with
    | .ok kept => emitAll e nodes kept
    | .error fault => (.error fault, kept)

/-- The first node of a list, counted from `index`, that is no item. -/
def checkItems (index : Nat) : List Node → Except TranspileFault Unit
  | [] => .ok ()
  | node :: nodes =>
    if node.isItem then checkItems (index + 1) nodes
    else .error (.notAnItem index node.kind)

/-- Emits a program and renders everything kept so far. -/
def transpile (e : Emitter κ) (nodes : List Node) (kept : κ) : Except TranspileFault String × κ :=
  match checkItems 0 nodes with
  | .error fault => (.error fault, kept)
  | .ok () => match e.emitAll nodes kept with
    | (.ok (), kept) => (e.render kept, kept)
    | (.error fault, kept) => (.error fault, kept)

end Emitter

/-- The number of blanks per level in JSON unless another is asked for. -/
def defaultIndent : Option Int := some 2

/-- A program in the text of a target. -/
def Target.transpile (target : Target) (nodes : List Node) : Except TranspileFault String :=
  match target with
  | .source => (Emitter.source.transpile nodes []).1
  | .json => ((Emitter.json defaultIndent).transpile nodes []).1

end Formulary
