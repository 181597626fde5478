import Formulary.Source.Token

/-!
Machines that read tokens one at a time. On each token a machine moves to its next state, or
stops without taking the token, with a result or a fault; only a token that cannot be converted
is taken by the move that fails on it. The input ends with the list or at the first token that
stands for its end, whichever comes first, so every run is a recursion on the list.
-/
namespace Formulary

/-- Why the input is refused. -/
inductive Fault where
  | unexpectedToken (token : Token)
  | unknownOperator (symbol : String)
  | unexpectedEnd
  | malformedNumber (text : String)
  | missingNumber
  deriving DecidableEq, Repr

namespace Fault

def message : Fault → String
  | .unexpectedToken token => "invalid token " ++ token.describe
  | .unknownOperator symbol => "invalid operator " ++ quoted symbol
  | .unexpectedEnd => "unexpected end of file"
  | .malformedNumber text => "could not convert string to float: " ++ quoted text
  | .missingNumber => "float() argument must be a string or a real number, not 'NoneType'"

/-- Faults are equal when they are of one kind and about equal tokens or symbols. -/
def equals : Fault → Fault → Bool
  | .unexpectedToken a, .unexpectedToken b => a.equals b
  | a, b => a == b

end Fault

inductive Move (σ ε α : Type) where
  /-- Takes the token. -/
  | shift (next : σ)
  /-- Leaves the token to whoever reads on. -/
  | finish (result : α)
  /-- Leaves the token, which is at fault. -/
  | refuse (fault : ε)
  /-- Takes the token and fails on its value. -/
  | spoil (fault : ε)

structure Machine (σ ε α : Type) where
  step : σ → Token → Move σ ε α
  atEnd : σ → Except ε α

namespace Machine

variable {σ ε α : Type}

/-- The outcome of a run, and the tokens that were not taken. -/
def run (m : Machine σ ε α) (s : σ) : List Token → Except ε α × List Token
  | [] => (m.atEnd s, [])
  | t :: rest =>
    if t.kind = .ending then (m.atEnd s, t :: rest)
    else match m.step s t with
      | .shift next => m.run next rest
      | .finish result => (.ok result, t :: rest)
      | .refuse fault => (.error fault, t :: rest)
      | .spoil fault => (.error fault, rest)

end Machine

end Formulary
