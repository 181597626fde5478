import Formulary.Text.Continuation
import Formulary.Text.Digit
import Formulary.Text.Letter

/-!
The characters of a word: what may begin one may also stand inside, and inside a word digits,
combining marks, connectors and joiners are allowed besides.
-/
namespace Formulary

def isWordChar (c : Char) : Bool := isWordStart c || isDigit c || isContinuation c

theorem isWordChar_of_isWordStart {c : Char} (h : isWordStart c = true) : isWordChar c = true := by
  simp [isWordChar, h]

theorem isWordChar_of_isDigit {c : Char} (h : isDigit c = true) : isWordChar c = true := by
  simp [isWordChar, h]

end Formulary
