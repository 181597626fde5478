/-!
Line ends. A carriage return, alone or before a line feed, is read as one line feed.
-/
namespace Formulary

def joinLineEnds : List Char → List Char
  | [] => []
  | '\r' :: '\n' :: rest => '\n' :: joinLineEnds rest
  | c :: rest => (if c = '\r' then '\n' else c) :: joinLineEnds rest

end Formulary
