/-!
Comments run from a number sign up to the end of its line. The line feed that ends the line
stays, so cutting the comments out keeps every later line and column in place.
-/
namespace Formulary

def commentMark : Char := '#'

/-- Cuts comments, the first of which may already be open. -/
def cutComments (inside : Bool) : List Char → List Char
  | [] => []
  | c :: rest =>
    if c = '\n' then c :: cutComments false rest
    else if inside || c == commentMark then cutComments true rest
    else c :: cutComments false rest

def stripComments (source : String) : String := String.ofList (cutComments false source.toList)

end Formulary
