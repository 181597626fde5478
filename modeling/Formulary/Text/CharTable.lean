/-!
Sets of characters given as tables of closed code point ranges in increasing order.
A search passes over the ranges that end too early and decides at the next one.
-/
namespace Formulary

abbrev CharTable := List (Nat × Nat)

namespace CharTable

def covers : CharTable → Nat → Bool
  | [], _ => false
  | (first, last) :: later, n => if last < n then covers later n else decide (first ≤ n)

/-- How far a covered code point lies from the start of its range. -/
def offset? : CharTable → Nat → Option Nat
  | [], _ => none
  | (first, last) :: later, n =>
    if last < n then offset? later n else if first ≤ n then some (n - first) else none

theorem offset_isSome (table : CharTable) (n : Nat) :
    (table.offset? n).isSome = table.covers n := by
  induction table with
  | nil => rfl
  | cons range later ih =>
    simp only [offset?, covers]
    split
    · exact ih
    · split <;> simp_all

end CharTable

end Formulary
