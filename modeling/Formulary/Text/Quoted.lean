import Formulary.Text.Hex
import Formulary.Text.Printable

/-!
Quoted text, as it stands in messages and in the display of tokens and nodes. An apostrophe
encloses the text unless that would force an escape that a double quote avoids. A backslash
escapes itself, the enclosing mark and every character that does not show.
-/
namespace Formulary

/-- The mark that encloses a text. -/
def quoteMark (text : List Char) : Char :=
  if '\'' ∈ text ∧ '"' ∉ text then '"' else '\''

def escaped (mark c : Char) : List Char :=
  if c = '\\' ∨ c = mark then ['\\', c]
  else if c = '\n' then ['\\', 'n']
  else if c = '\r' then ['\\', 'r']
  else if c = '\t' then ['\\', 't']
  else if isPrintable c then [c]
  else if c.toNat < 0x100 then '\\' :: 'x' :: hexText 2 c.toNat
  else if c.toNat < 0x10000 then '\\' :: 'u' :: hexText 4 c.toNat
  else '\\' :: 'U' :: hexText 8 c.toNat

def quotedChars (text : List Char) : List Char :=
  quoteMark text :: (text.flatMap (escaped (quoteMark text)) ++ [quoteMark text])

def quoted (text : String) : String := String.ofList (quotedChars text.toList)

end Formulary
