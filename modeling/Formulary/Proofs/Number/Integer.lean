import Formulary.Proofs.Number.Figure

/-!
Integers in decimal. Free number text is read as the integer that it displays, unless it has more
digits than are read.
-/
namespace Formulary

open FreeNumber

theorem chars_integerText (n : Int) :
    (integerText n).toList = (if n < 0 then ['-'] else []) ++ Decimal.digits n.natAbs := by
  rw [integerText, String.toList_append, String.toList_ofList]
  split <;> rfl

theorem integerText_inside (n : Int) : ∀ c ∈ (integerText n).toList, isFigureChar c = true := by
  rw [chars_integerText]
  refine List.forall_mem_append.mpr ⟨?_, ?_⟩
  · split <;> simp [isFigureChar]
  · intro c member
    exact isFigureChar_of_isDigit (Decimal.ascii_digits _ c member)

theorem sign_integerText (n : Int) :
    sign (integerText n).toList = (decide (n < 0), Decimal.digits n.natAbs) := by
  rw [chars_integerText]
  by_cases below : n < 0
  · simp [below, sign]
  · have ascii := Decimal.ascii_digits n.natAbs
    obtain ⟨c, cs, same⟩ := List.exists_cons_of_ne_nil
      (Nat.toDigits_ne_nil (b := 10) (n := n.natAbs))
    replace same : Decimal.digits n.natAbs = c :: cs := same
    rw [same] at ascii ⊢
    simp only [below, if_false, List.nil_append, decide_false]
    exact sign_plain (.inl (ascii c (by simp)))

theorem signed_integerText (n : Int) : signed? (integerText n).toList = some n := by
  have ascii := Decimal.ascii_digits n.natAbs
  have digits : (Decimal.digits n.natAbs).all isAsciiDigit = true := by
    rw [List.all_eq_true]
    intro c member
    rw [isAsciiDigit_eq]
    exact ascii c member
  have value : digitsValue (Decimal.digits n.natAbs) = n.natAbs := by
    rw [digitsValue_of_ascii ascii, Decimal.value_digits]
  have nonempty : Decimal.digits n.natAbs ≠ [] := Nat.toDigits_ne_nil
  simp only [signed?, sign_integerText, value, if_pos (And.intro nonempty digits),
    decide_eq_true_eq]
  split
  · next below => exact congrArg some (by omega)
  · next above => exact congrArg some (by omega)

theorem readInteger_integerText (n : Int) : readInteger? (integerText n) =
    if (Decimal.digits n.natAbs).length ≤ integerDigitLimit then some n else none := by
  rw [readInteger?, read_inside (integerText_inside n), Option.bind_some, sign_integerText,
    signed_integerText]

end Formulary
