import Formulary.Number.Spelling
import Formulary.Text.Quoted

/-!
Tokens: a kind, a value and the place where the lexeme began. The place only serves messages, and
two tokens are equal when their kinds and values are.
-/
namespace Formulary

/-- Lines and columns count from one; a line number of zero stands for no place at all. -/
structure Place where
  line : Int
  column : Int
  deriving DecidableEq, Repr

namespace Place

def nowhere : Place := ⟨0, 0⟩

def start : Place := ⟨1, 1⟩

/-- Only a line feed ends a line. -/
def past (place : Place) (c : Char) : Place :=
  if c = '\n' then ⟨place.line + 1, 1⟩ else ⟨place.line, place.column + 1⟩

def pastAll (place : Place) (text : List Char) : Place := text.foldl past place

end Place

inductive TokenKind where
  | definition
  | declaration
  | separator
  | opening
  | closing
  | comma
  | name
  | operator
  | number
  | ending
  | other (tag : String)
  deriving DecidableEq, Repr

namespace TokenKind

def tag : TokenKind → String
  | .definition => "DEF"
  | .declaration => "EXTERN"
  | .separator => "DELIM"
  | .opening => "LPAREN"
  | .closing => "RPAREN"
  | .comma => "COMMA"
  | .name => "IDENT"
  | .operator => "OPERATOR"
  | .number => "NUMBER"
  | .ending => "EOF"
  | .other tag => tag

def known : List TokenKind :=
  [.definition, .declaration, .separator, .opening, .closing, .comma, .name, .operator, .number,
    .ending]

def ofTag (tag : String) : TokenKind := (known.find? (·.tag == tag)).getD (.other tag)

theorem tag_ofTag (tag : String) : (ofTag tag).tag = tag := by
  simp only [ofTag]
  cases h : known.find? (·.tag == tag) with
  | none => rfl
  | some kind => simpa using List.find?_some h

end TokenKind

inductive TokenValue where
  | text (s : String)
  | number (value : Binary64)
  | absent
  deriving DecidableEq, Repr

namespace TokenValue

/-- The bare text of a value. -/
def plain : TokenValue → String
  | .text s => s
  | .number value => value.display
  | .absent => "None"

/-- The value as it stands in messages. -/
def display : TokenValue → String
  | .text s => quoted s
  | .number value => value.display
  | .absent => "None"

/-- Numbers compare as numbers. -/
def equals : TokenValue → TokenValue → Bool
  | .number x, .number y => x.equals y
  | a, b => a == b

end TokenValue

structure Token where
  kind : TokenKind
  value : TokenValue
  place : Place := .nowhere
  deriving DecidableEq, Repr

namespace Token

/-- The token that stands for the end of the input. -/
def endOfInput (place : Place) : Token := ⟨.ending, .absent, place⟩

def equals (a b : Token) : Bool := a.kind == b.kind && a.value.equals b.value

def display (t : Token) : String := "Token(" ++ t.kind.tag ++ ", " ++ t.value.display ++ ")"

/-- The token as error messages name it. -/
def describe (t : Token) : String :=
  if t.kind = .ending then "end of input"
  else t.kind.tag ++ " " ++ t.value.display ++
    (if t.place.line = 0 then ""
     else " at line " ++ integerText t.place.line ++ ", col " ++ integerText t.place.column)

end Token

end Formulary
