import Formulary.Text.CharTable

/-!
White space: the separators of Unicode 14 together with the control characters that move the
printing position or separate records.
-/
namespace Formulary

def blankTable : CharTable := [
  (0x9, 0xd), (0x1c, 0x20), (0x85, 0x85), (0xa0, 0xa0), (0x1680, 0x1680), (0x2000, 0x200a),
  (0x2028, 0x2029), (0x202f, 0x202f), (0x205f, 0x205f), (0x3000, 0x3000)]

def isBlank (c : Char) : Bool := blankTable.covers c.toNat

end Formulary
