import Formulary.OperatorTable
import Formulary.Proofs.Outcome

/-!
Accepted tables. Entries are accepted exactly when each of them is an operator character with a
natural number for its power, and the table then holds what was given.
-/
namespace Formulary

/-- An entry as it is given. -/
def OperatorEntry.given (entry : OperatorEntry) : Scalar × Scalar :=
  (.text (String.singleton entry.symbol), .integer entry.power)

namespace OperatorTable

theorem checkSymbol_eq_ok_iff {symbol : Scalar} {found : { c : Char // isOperator c = true }} :
    checkSymbol symbol = .ok found ↔ symbol = .text (String.singleton found.val) := by
  constructor
  · intro checked
    unfold checkSymbol at checked
    split at checked
    · next text =>
      split at checked
      · next c same =>
        split at checked
        · next operator =>
          obtain rfl := Except.ok.inj checked
          rw [← String.toList_singleton, String.toList_inj] at same
          rw [same]
        · cases checked
      · cases checked
    · cases checked
  · rintro rfl
    simp [checkSymbol, found.property]

theorem checkPower_eq_ok_iff {symbol : Char} {power : Scalar} {n : Nat} :
    checkPower symbol power = .ok n ↔ power = .integer n := by
  constructor
  · intro checked
    unfold checkPower at checked
    split at checked
    · rw [Except.ok.inj checked]
      rfl
    · cases checked
  · rintro rfl
    rfl

theorem checkEntry_eq_ok_iff {given : Scalar × Scalar} {entry : OperatorEntry} :
    checkEntry given = .ok entry ↔ given = entry.given := by
  constructor
  · intro checked
    obtain ⟨found, symbol, rest⟩ := bind_eq_ok.mp checked
    obtain ⟨n, power, made⟩ := bind_eq_ok.mp rest
    obtain rfl := Except.ok.inj made
    exact Prod.ext (checkSymbol_eq_ok_iff.mp symbol) (checkPower_eq_ok_iff.mp power)
  · rintro rfl
    have symbol : checkSymbol entry.given.1 = .ok ⟨entry.symbol, entry.isOperator_symbol⟩ :=
      checkSymbol_eq_ok_iff.mpr rfl
    exact bind_eq_ok.mpr ⟨_, symbol, bind_eq_ok.mpr ⟨entry.power, rfl, rfl⟩⟩

theorem checkEntries_eq_ok_iff {given : List (Scalar × Scalar)} {entries : List OperatorEntry} :
    checkEntries given = .ok entries ↔ given = entries.map OperatorEntry.given := by
  induction given generalizing entries with
  | nil => cases entries <;> simp [checkEntries]
  | cons first others ih =>
    constructor
    · intro checked
      obtain ⟨entry, here, rest⟩ := bind_eq_ok.mp checked
      obtain ⟨later, behind, made⟩ := bind_eq_ok.mp rest
      obtain rfl := Except.ok.inj made
      rw [checkEntry_eq_ok_iff.mp here, ih.mp behind, List.map_cons]
    · intro same
      obtain ⟨entry, later, rfl, rfl, rfl⟩ := List.map_eq_cons_iff.mp same.symm
      exact bind_eq_ok.mpr ⟨entry, checkEntry_eq_ok_iff.mpr rfl,
        bind_eq_ok.mpr ⟨later, ih.mpr rfl, rfl⟩⟩

/-- A repeated symbol counts once, where it stands first and with the power that it has last. -/
theorem ofEntries_eq_ok_iff {given : List (Scalar × Scalar)} {table : OperatorTable} :
    ofEntries given = .ok table ↔
      Assoc.putAll [] given = table.entries.map OperatorEntry.given := by
  rw [← checkEntries_eq_ok_iff]
  constructor
  · intro accepted
    obtain ⟨entries, checked, made⟩ := bind_eq_ok.mp accepted
    obtain rfl := Except.ok.inj made
    exact checked
  · exact fun checked => bind_eq_ok.mpr ⟨table.entries, checked, rfl⟩

end OperatorTable

end Formulary
