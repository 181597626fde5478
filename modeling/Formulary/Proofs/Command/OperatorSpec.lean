import Formulary.Command.OperatorSpec
import Formulary.Proofs.Number.Integer
import Formulary.Proofs.OperatorTable

/-!
Operators of tables on the command line. Every entry of an accepted table is read back from its
symbol, an equals sign and its power, unless the symbol is an equals sign itself. The first equals
sign then leaves no symbol in front of it, and whatever the power, no text gives such an entry.
-/
namespace Formulary

/-- An entry as it is written on the command line. -/
def OperatorEntry.spec (entry : OperatorEntry) : String :=
  String.singleton entry.symbol ++ "=" ++ integerText entry.power

theorem readOperatorSpec_of_symbol {symbol : Char} (other : symbol ≠ '=') (power : String) :
    readOperatorSpec (String.singleton symbol ++ "=" ++ power) =
      match readInteger? power with
      | some n => .ok (symbol, n)
      | none => .error (.notAnInteger power) := by
  have chars : (String.singleton symbol ++ "=" ++ power).toList = [symbol] ++ '=' :: power.toList := by
    simp
  have before : ∀ c ∈ [symbol], (c != '=') = true := by simpa using other
  have divides : ∀ c ∈ ('=' :: power.toList).head?, (c != '=') = false := by simp
  cases read : readInteger? power <;>
    simp only [readOperatorSpec, chars, takeWhile_of_break before divides,
      dropWhile_of_break before divides, String.ofList_toList, read]

/-- What begins with an equals sign has no symbol. -/
theorem readOperatorSpec_of_equals (text : String) :
    readOperatorSpec ("=" ++ text) = .error (.malformed ("=" ++ text)) := by
  have chars : ("=" ++ text).toList = '=' :: text.toList := by simp
  simp [readOperatorSpec, chars]

theorem readOperatorSpec_spec (entry : OperatorEntry) : readOperatorSpec entry.spec =
    if entry.symbol = '=' then .error (.malformed entry.spec)
    else if (Decimal.digits entry.power).length ≤ integerDigitLimit then
      .ok (entry.symbol, (entry.power : Int))
    else .error (.notAnInteger (integerText entry.power)) := by
  by_cases equals : entry.symbol = '='
  · rw [if_pos equals, OperatorEntry.spec, equals, String.append_assoc]
    exact readOperatorSpec_of_equals _
  · rw [if_neg equals, OperatorEntry.spec, readOperatorSpec_of_symbol equals,
      readInteger_integerText, Int.natAbs_natCast]
    split <;> simp_all

/-- The symbol stands in front of the first equals sign, so it is none itself. -/
theorem symbol_ne_equals {text : String} {symbol : Char} {n : Int}
    (read : readOperatorSpec text = .ok (symbol, n)) : symbol ≠ '=' := by
  unfold readOperatorSpec at read
  split at read
  · next c power _ before _ =>
    split at read
    · obtain ⟨rfl, _⟩ := Prod.mk.inj (Except.ok.inj read)
      have inside : c ∈ text.toList.takeWhile (· != '=') := by simp [before]
      simpa using List.all_eq_true.mp List.all_takeWhile c inside
    · cases read
  · cases read

/-- Every entry of an accepted table whose symbol is no equals sign is read back from the command
line, if its power has no more digits than are read. An entry for an equals sign is refused, and no
other text is read as one. -/
theorem operators_read_back {given : List (Scalar × Scalar)} {table : OperatorTable}
    (accepted : OperatorTable.ofEntries given = .ok table) :
    ∀ pair ∈ Assoc.putAll [] given, ∃ entry ∈ table.entries, pair = entry.given ∧
      (entry.symbol ≠ '=' → (Decimal.digits entry.power).length ≤ integerDigitLimit →
        readOperatorSpec entry.spec = .ok (entry.symbol, (entry.power : Int))) ∧
      (entry.symbol = '=' → readOperatorSpec entry.spec = .error (.malformed entry.spec) ∧
        ∀ (text : String) (n : Int), readOperatorSpec text ≠ .ok (entry.symbol, n)) := by
  intro pair member
  rw [OperatorTable.ofEntries_eq_ok_iff.mp accepted] at member
  obtain ⟨entry, inside, rfl⟩ := List.mem_map.mp member
  refine ⟨entry, inside, rfl, ?_, ?_⟩
  · intro other short
    rw [readOperatorSpec_spec, if_neg other, if_pos short]
  · intro equals
    refine ⟨by rw [readOperatorSpec_spec, if_pos equals], fun text n read => ?_⟩
    exact symbol_ne_equals read equals

/-- A table with a caret in it, which is read back. -/
theorem operators_read_back_caret :
    let caret : OperatorEntry := ⟨'^', 60, by decide⟩
    OperatorTable.ofEntries [caret.given] = .ok ⟨[caret]⟩ ∧
      caret.given ∈ Assoc.putAll [] [caret.given] ∧ caret.symbol ≠ '=' ∧
      (Decimal.digits caret.power).length ≤ integerDigitLimit ∧
      caret.spec = "^=60" ∧ readOperatorSpec caret.spec = .ok ('^', 60) := by
  intro caret
  have accepted : OperatorTable.ofEntries [caret.given] = .ok ⟨[caret]⟩ :=
    OperatorTable.ofEntries_eq_ok_iff.mpr rfl
  have member : caret.given ∈ Assoc.putAll [] [caret.given] := List.mem_singleton_self _
  have other : caret.symbol ≠ '=' := by decide
  have short : (Decimal.digits caret.power).length ≤ integerDigitLimit := by decide
  refine ⟨accepted, member, other, short, by decide, ?_⟩
  obtain ⟨entry, inside, _, read, _⟩ := operators_read_back accepted _ member
  obtain rfl := List.mem_singleton.mp inside
  exact read other short

/-- An equals sign is accepted as an operator of a table, but not on the command line. -/
theorem equals_not_read_back :
    let equals : OperatorEntry := ⟨'=', 5, by decide⟩
    OperatorTable.ofEntries [equals.given] = .ok ⟨[equals]⟩ ∧
      (Decimal.digits equals.power).length ≤ integerDigitLimit ∧ equals.spec = "==5" ∧
      readOperatorSpec equals.spec ≠ .ok (equals.symbol, (equals.power : Int)) := by
  exact ⟨OperatorTable.ofEntries_eq_ok_iff.mpr rfl, by decide, by decide,
    fun read => symbol_ne_equals read rfl⟩

end Formulary
