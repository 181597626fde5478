import Formulary.Assoc
import Formulary.Number.Spelling
import Formulary.Source.Comment
import Formulary.Source.Lexeme
import Formulary.Text.Quoted

/-!
Operator tables. An operator is a single character that nothing else in the language can begin
or hold, and its power says how tightly it binds. Tables are given as entries of any values, of
which a repeated symbol keeps its first place and takes its last power.
-/
namespace Formulary

/-- The characters that may be operators of a table. -/
def isOperator (c : Char) : Bool :=
  !isBlank c && !isWordChar c && c != commentMark && (punctuationKind? c).isNone

/-- A value as an operator table may be given it. -/
inductive Scalar where
  | text (s : String)
  | integer (n : Int)
  | truth (b : Bool)
  | number (x : Binary64)
  | absent
  deriving DecidableEq, Repr

def Scalar.display : Scalar → String
  | .text s => quoted s
  | .integer n => integerText n
  | .truth b => if b then "True" else "False"
  | .number x => x.display
  | .absent => "None"

/-- Why a table is refused. -/
inductive TableFault where
  | badSymbol (symbol : Scalar)
  | badPower (symbol : Char) (power : Scalar)
  deriving DecidableEq, Repr

def TableFault.message : TableFault → String
  | .badSymbol symbol => "Operator must be a single operator character, got " ++ symbol.display
  | .badPower symbol power =>
    "Precedence of " ++ quoted (String.singleton symbol) ++
      " must be a non-negative integer, got " ++ power.display

/-- An operator and its power. -/
structure OperatorEntry where
  symbol : Char
  power : Nat
  isOperator_symbol : isOperator symbol = true
  deriving DecidableEq

structure OperatorTable where
  entries : List OperatorEntry

namespace OperatorTable

def checkSymbol (symbol : Scalar) : Except TableFault { c : Char // isOperator c = true } :=
  match symbol with
  | .text s =>
    match s.toList with
    | [c] => if h : isOperator c = true then .ok ⟨c, h⟩ else .error (.badSymbol symbol)
    | _ => .error (.badSymbol symbol)
  | _ => .error (.badSymbol symbol)

def checkPower (symbol : Char) : Scalar → Except TableFault Nat
  | .integer (.ofNat n) => .ok n
  | power => .error (.badPower symbol power)

def checkEntry (entry : Scalar × Scalar) : Except TableFault OperatorEntry := do
  let ⟨symbol, h⟩ ← checkSymbol entry.1
  let power ← checkPower symbol entry.2
  return ⟨symbol, power, h⟩

def checkEntries : List (Scalar × Scalar) → Except TableFault (List OperatorEntry)
  | [] => .ok []
  | entry :: rest => do return (← checkEntry entry) :: (← checkEntries rest)

/-- The table of the entries given, unless one of them is refused; the first such is reported. -/
def ofEntries (entries : List (Scalar × Scalar)) : Except TableFault OperatorTable := do
  return ⟨← checkEntries (Assoc.putAll [] entries)⟩

/-- The power of an operator, if the table has it. -/
def powerOf? (table : OperatorTable) (symbol : String) : Option Nat :=
  (table.entries.find? (fun e => String.singleton e.symbol == symbol)).map (·.power)

/-- The entries that hold where no table is given. -/
def defaultEntries : List (Scalar × Scalar) :=
  [(.text "*", .integer 40), (.text "/", .integer 40), (.text "+", .integer 20),
    (.text "-", .integer 20)]

def default : OperatorTable :=
  ⟨[⟨'*', 40, by decide⟩, ⟨'/', 40, by decide⟩, ⟨'+', 20, by decide⟩, ⟨'-', 20, by decide⟩]⟩

end OperatorTable

end Formulary
