import Formulary.Node.Basic
import Formulary.OperatorTable
import Formulary.Parse.Machine

/-!
Expressions. The state of the machine is what is still open to the left, innermost first, and
what stands at the place of reading. An operand waits until the next token shows which operator
binds it: operators to its left that bind at least as tightly are closed around it first, so
equal powers group to the left and tighter operators nest.
-/
namespace Formulary

/-- A construct that is open to the right. -/
inductive Frame where
  | operation (left : Node) (op : String) (power : Nat)
  | group
  | call (callee : String) (args : List Node)
  deriving Repr

inductive Focus where
  /-- An operand must follow. -/
  | operand
  /-- The first argument of a call follows, or the end of the call. -/
  | argument
  /-- A name, which an opening parenthesis would make a call. -/
  | name (name : String)
  /-- A complete operand. -/
  | complete (operand : Node)
  deriving Repr

structure Reading where
  frames : List Frame
  focus : Focus
  deriving Repr

/-- Which operators a run takes outside all parentheses. -/
inductive Bound where
  /-- None: the run ends after one operand. -/
  | none
  /-- Those of at least this power. -/
  | atLeast (power : Int)
  deriving DecidableEq, Repr

/-- Closes the open operations that bind at least as tightly as a power around their right
operand. -/
def settle (power : Nat) : List Frame → Node → List Frame × Node
  | .operation left op p :: outer, right =>
    if power ≤ p then settle power outer (.binary op left right)
    else (.operation left op p :: outer, right)
  | frames, right => (frames, right)

/-- The number a token stands for, as far as its value can be converted. -/
def Token.number? (t : Token) : Except Fault Binary64 :=
  match t.value with
  | .number x => .ok x
  | .text s => match Binary64.read? s with
    | some x => .ok x
    | none => .error (.malformedNumber s)
  | .absent => .error .missingNumber

namespace Expression

/-- The state before a whole expression. -/
def start : Reading := ⟨[], .operand⟩

/-- The move on the first token of an operand. -/
def beginOperand (frames : List Frame) (t : Token) : Move Reading Fault Node :=
  match t.kind with
  | .number => match t.number? with
    | .ok x => .shift ⟨frames, .complete (.literal x)⟩
    | .error fault => .spoil fault
  | .name => .shift ⟨frames, .name t.value.plain⟩
  | .opening => .shift ⟨.group :: frames, .operand⟩
  | _ => .refuse (.unexpectedToken t)

/-- The move on an operator that follows a complete operand. -/
def continueWith (table : OperatorTable) (bound : Bound) (frames : List Frame) (operand : Node)
    (t : Token) : Move Reading Fault Node :=
  match table.powerOf? t.value.plain with
  | none => .refuse (.unknownOperator t.value.plain)
  | some power =>
    match settle power frames operand, bound with
    | ([], left), .atLeast least =>
      if (power : Int) < least then .finish left
      else .shift ⟨[.operation left t.value.plain power], .operand⟩
    | (frames, left), _ => .shift ⟨.operation left t.value.plain power :: frames, .operand⟩

/-- The move on any other token that follows a complete operand: every open operation closes, and
the token must suit the parenthesis that is then innermost. -/
def close (frames : List Frame) (operand : Node) (t : Token) : Move Reading Fault Node :=
  match settle 0 frames operand with
  | (.group :: outer, inner) =>
    match t.kind with
    | .closing => .shift ⟨outer, .complete inner⟩
    | _ => .refuse (.unexpectedToken t)
  | (.call callee args :: outer, arg) =>
    match t.kind with
    | .comma => .shift ⟨.call callee (args ++ [arg]) :: outer, .operand⟩
    | .closing => .shift ⟨outer, .complete (.call callee (args ++ [arg]))⟩
    | _ => .refuse (.unexpectedToken t)
  | (_, whole) => .finish whole

/-- The move after a complete operand. -/
def afterOperand (table : OperatorTable) (bound : Bound) (frames : List Frame) (operand : Node)
    (t : Token) : Move Reading Fault Node :=
  match frames, bound with
  | [], .none => .finish operand
  | frames, bound =>
    if t.kind = .operator then continueWith table bound frames operand t
    else close frames operand t

def step (table : OperatorTable) (bound : Bound) (r : Reading) (t : Token) :
    Move Reading Fault Node :=
  match r.focus with
  | .operand => beginOperand r.frames t
  | .argument => match r.frames with
    | .call callee args :: outer =>
      if t.kind = .closing then .shift ⟨outer, .complete (.call callee args)⟩
      else beginOperand r.frames t
    | _ => beginOperand r.frames t
  | .name name =>
    if t.kind = .opening then .shift ⟨.call name [] :: r.frames, .argument⟩
    else afterOperand table bound r.frames (.reference name) t
  | .complete operand => afterOperand table bound r.frames operand t

/-- An expression may end after an operand that no parenthesis encloses. -/
def atEnd (r : Reading) : Except Fault Node :=
  let closeAll (operand : Node) : Except Fault Node :=
    match settle 0 r.frames operand with
    | ([], whole) => .ok whole
    | _ => .error .unexpectedEnd
  match r.focus with
  | .complete operand => closeAll operand
  | .name name => closeAll (.reference name)
  | _ => .error .unexpectedEnd

def machine (table : OperatorTable) (bound : Bound) : Machine Reading Fault Node :=
  ⟨step table bound, atEnd⟩

end Expression

end Formulary
