import Formulary.Json.Basic
import Formulary.Number.Spelling
import Formulary.Text.Hex

/-!
JSON text in printable ASCII. Strings escape what lies outside it, characters beyond the first
plane as surrogate pairs. The layout is one line, or one line per entry with a fixed number of
blanks per level. Infinities and NaN have no JSON text.
-/
namespace Formulary

namespace Json

def unicodeEscape (unit : Nat) : List Char := '\\' :: 'u' :: hexText 4 unit

def escapedChar (c : Char) : List Char :=
  if c = '"' ∨ c = '\\' then ['\\', c]
  else if c = '\n' then ['\\', 'n']
  else if c = '\r' then ['\\', 'r']
  else if c = '\t' then ['\\', 't']
  else if c.toNat = 8 then ['\\', 'b']
  else if c.toNat = 12 then ['\\', 'f']
  else if 32 ≤ c.toNat ∧ c.toNat < 127 then [c]
  else if c.toNat < 0x10000 then unicodeEscape c.toNat
  else unicodeEscape (0xd800 + (c.toNat - 0x10000) / 0x400) ++
    unicodeEscape (0xdc00 + (c.toNat - 0x10000) % 0x400)

def stringText (s : String) : List Char := '"' :: (s.toList.flatMap escapedChar ++ ['"'])

/-- How the entries of arrays and objects are set apart: on one line, or each on a line of its
own with so many blanks per level. -/
inductive Layout where
  | line
  | block (blanks : Nat)
  deriving DecidableEq, Repr

namespace Layout

/-- A negative indent is none. -/
def ofIndent : Option Int → Layout
  | none => .line
  | some n => .block n.toNat

/-- What stands before the first entry at a level. -/
def opening : Layout → Nat → List Char
  | .line, _ => []
  | .block blanks, level => '\n' :: List.replicate (blanks * level) ' '

/-- What stands between two entries at a level. -/
def between : Layout → Nat → List Char
  | .line, _ => [',', ' ']
  | .block blanks, level => ',' :: '\n' :: List.replicate (blanks * level) ' '

end Layout

mutual

/-- The text of a value that stands at a level, and then a given text. -/
def charsThen (layout : Layout) (level : Nat) : Json → List Char → List Char
  | .text s, rest => stringText s ++ rest
  | .number x, rest => x.displayChars ++ rest
  | .array [], rest => '[' :: ']' :: rest
  | .array (item :: items), rest =>
    '[' :: (layout.opening (level + 1) ++ charsThen layout (level + 1) item
      (itemsThen layout (level + 1) items (layout.opening level ++ ']' :: rest)))
  | .object [], rest => '\x7b' :: '\x7d' :: rest
  | .object ((key, value) :: fields), rest =>
    '\x7b' :: (layout.opening (level + 1) ++ stringText key ++ ':' :: ' ' ::
      charsThen layout (level + 1) value
        (fieldsThen layout (level + 1) fields (layout.opening level ++ '\x7d' :: rest)))

/-- The entries of an array after its first, and then a given text. -/
def itemsThen (layout : Layout) (level : Nat) : List Json → List Char → List Char
  | [], rest => rest
  | item :: items, rest =>
    layout.between level ++ charsThen layout level item (itemsThen layout level items rest)

/-- The entries of an object after its first, and then a given text. -/
def fieldsThen (layout : Layout) (level : Nat) : List (String × Json) → List Char → List Char
  | [], rest => rest
  | (key, value) :: fields, rest =>
    layout.between level ++ stringText key ++ ':' :: ' ' ::
      charsThen layout level value (fieldsThen layout level fields rest)

end

/-- The text of a value. -/
def chars (layout : Layout) (value : Json) : List Char := value.charsThen layout 0 []

mutual

/-- The first number, in reading order, that has no JSON text. -/
def unwritable? : Json → Option Binary64
  | .text _ => none
  | .number x => if x.isFinite then none else some x
  | .array items => unwritableItem? items
  | .object fields => unwritableField? fields

def unwritableItem? : List Json → Option Binary64
  | [] => none
  | item :: items => (unwritable? item).or (unwritableItem? items)

def unwritableField? : List (String × Json) → Option Binary64
  | [] => none
  | (_, value) :: fields => (unwritable? value).or (unwritableField? fields)

end

/-- A number without JSON text. -/
structure Unwritable where
  layout : Layout
  value : Binary64
  deriving DecidableEq, Repr

/-- Only the layout in lines names the number. -/
def Unwritable.message (e : Unwritable) : String :=
  "Out of range float values are not JSON compliant" ++
    (match e.layout with
     | .line => ""
     | .block _ => ": " ++ e.value.display)

def write (indent : Option Int) (value : Json) : Except Unwritable String :=
  match value.unwritable? with
  | some x => .error ⟨.ofIndent indent, x⟩
  | none => .ok (String.ofList (value.chars (.ofIndent indent)))

end Json

end Formulary
