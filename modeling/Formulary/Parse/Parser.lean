import Formulary.Parse.Program

/-!
A parser keeps a position in a token list and reads parts of a program from there, one call after
another. A part that is refused leaves the position at the token where its reading stopped.
Beyond the list, the current token is an end of input without a place.
-/
namespace Formulary

structure Parser where
  tokens : List Token
  position : Nat := 0
  table : OperatorTable

namespace Parser

def remaining (p : Parser) : List Token := p.tokens.drop p.position

def current (p : Parser) : Token := p.remaining.head?.getD (.endOfInput .nowhere)

def atEnd (p : Parser) : Bool := p.current.kind == .ending

/-- Takes the current token, whatever it is. -/
def advance (p : Parser) : Token × Parser := (p.current, { p with position := p.position + 1 })

/-- Takes the current token if it is of one of the kinds. -/
def expect (p : Parser) (kinds : List TokenKind) : Except Fault Token × Parser :=
  if p.atEnd then (.error .unexpectedEnd, p)
  else if p.current.kind ∈ kinds then (.ok p.current, p.advance.2)
  else (.error (.unexpectedToken p.current), p)

def powerOf (p : Parser) (t : Token) : Except Fault Nat :=
  match p.table.powerOf? t.value.plain with
  | some power => .ok power
  | none => .error (.unknownOperator t.value.plain)

/-- Runs a machine from the position on. -/
def read {σ ε α : Type} (p : Parser) (m : Machine σ ε α) (s : σ) : Except ε α × Parser :=
  let (outcome, rest) := m.run s p.remaining
  (outcome, { p with position := p.position + (p.remaining.length - rest.length) })

def program (p : Parser) : Except ProgramFault (List Node) × Parser :=
  p.read (ProgramReading.machine p.table) .start

def readItem (p : Parser) (r : ItemReading) : Except Fault Node × Parser :=
  p.read (ItemReading.machine p.table) r

/-- A definition, after its first word. -/
def definition (p : Parser) : Except Fault Node × Parser := p.readItem (.definition .start)

/-- A declaration, after its first word. -/
def declaration (p : Parser) : Except Fault Node × Parser := p.readItem (.declaration .start)

/-- A bare expression, as an item. -/
def bareItem (p : Parser) : Except Fault Node × Parser := p.readItem .bare

def prototype (p : Parser) : Except Fault Prototype × Parser :=
  p.read PrototypeReading.machine .start

def readExpression (p : Parser) (bound : Bound) (r : Reading) : Except Fault Node × Parser :=
  p.read (Expression.machine p.table bound) r

def expression (p : Parser) : Except Fault Node × Parser :=
  p.readExpression (.atLeast 0) Expression.start

/-- An operand: a number, a name, a call or an expression in parentheses. -/
def operand (p : Parser) : Except Fault Node × Parser := p.readExpression .none Expression.start

/-- A name or a call; the current token is taken for the name whatever it is. -/
def named (p : Parser) : Except Fault Node × Parser :=
  p.advance.2.readExpression .none ⟨[], .name p.current.value.plain⟩

/-- An expression in parentheses. -/
def group (p : Parser) : Except Fault Node × Parser :=
  match p.expect [.opening] with
  | (.ok _, p) => p.readExpression .none ⟨[.group], .operand⟩
  | (.error fault, p) => (.error fault, p)

/-- What follows a complete operand: operators of at least the given power, with their right
operands. -/
def operations (p : Parser) (least : Int) (left : Node) : Except Fault Node × Parser :=
  p.readExpression (.atLeast least) ⟨[], .complete left⟩

end Parser

end Formulary
