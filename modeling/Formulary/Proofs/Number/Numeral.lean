import Formulary.Number.Reading
import Formulary.Number.Spelling
import Formulary.Proofs.Number.Nearest
import Formulary.Proofs.Source.Character

/-!
Positional notation is a numeral: digits, a point and digits again. Read as one, it gives back the
number that was written.
-/
namespace Formulary

theorem digitValue_of_ascii {c : Char} (digit : c.isDigit = true) :
    digitValue? c = some (c.toNat - 48) := by
  obtain ⟨lower, upper⟩ := isDigit_bounds digit
  have offset : digitTable.offset? c.toNat = some (c.toNat - 48) :=
    CharTable.offset_head lower upper
  rw [digitValue?, offset, Option.map_some, Nat.mod_eq_of_lt (by omega)]

theorem digitsValue_of_ascii {cs : List Char} (ascii : ∀ c ∈ cs, c.isDigit = true) :
    digitsValue cs = Nat.ofDigitChars 10 cs 0 := by
  have general (start : Nat) : cs.foldl (fun n c => 10 * n + (digitValue? c).getD 0) start =
      Nat.ofDigitChars 10 cs start := by
    induction cs generalizing start with
    | nil => rfl
    | cons c cs ih =>
      have value := digitValue_of_ascii (ascii c (by simp))
      rw [List.foldl_cons, Nat.ofDigitChars_cons, value, Option.getD_some]
      exact ih (fun d member => ascii d (by simp [member])) _
  exact general 0

/-- Digits of any script, and perhaps a point and more digits behind them. -/
structure IsNumber (cs whole : List Char) (fraction : Option (List Char)) : Prop where
  shape : cs = whole ++ fraction.elim [] ('.' :: ·)
  nonempty : whole ≠ []
  digits : ∀ c ∈ whole ++ fraction.getD [], isDigit c = true

/-- ASCII digits with a point behind the first or a later one. -/
structure IsNumeral (cs whole fraction : List Char) : Prop where
  shape : cs = whole ++ '.' :: fraction
  nonempty : whole ≠ []
  ascii : ∀ c ∈ whole ++ fraction, c.isDigit = true

theorem IsNumber.ofNumeral_eq {cs whole : List Char} {fraction : Option (List Char)}
    (number : IsNumber cs whole fraction) : Decimal.ofNumeral cs =
      ⟨digitsValue (whole ++ fraction.getD []), -((fraction.getD []).length : Int)⟩ := by
  obtain ⟨rfl, _, digits⟩ := number
  have other : ∀ c ∈ whole, (c != '.') = true := by
    intro c member
    have digit := digits c (List.mem_append_left _ member)
    simp only [bne_iff_ne, ne_eq]
    rintro rfl
    exact absurd digit (by decide)
  have stops : ∀ c ∈ (fraction.elim [] ('.' :: ·)).head?, (c != '.') = false := by
    cases fraction with
    | none => simp
    | some ds => simp
  simp only [Decimal.ofNumeral, takeWhile_of_break other stops, dropWhile_of_break other stops]
  cases fraction with
  | none => rfl
  | some ds => rfl

namespace IsNumeral

variable {cs whole fraction : List Char}

theorem isNumber (numeral : IsNumeral cs whole fraction) : IsNumber cs whole (some fraction) :=
  ⟨numeral.shape, numeral.nonempty, fun c member => isDigit_of_ascii (numeral.ascii c member)⟩

theorem ofNumeral_eq (numeral : IsNumeral cs whole fraction) :
    Decimal.ofNumeral cs =
      ⟨Nat.ofDigitChars 10 (whole ++ fraction) 0, -(fraction.length : Int)⟩ := by
  rw [numeral.isNumber.ofNumeral_eq, Option.getD_some, digitsValue_of_ascii numeral.ascii]

end IsNumeral

namespace Decimal

theorem ascii_digits (n : Nat) : ∀ c ∈ digits n, c.isDigit = true :=
  fun _ member => Nat.isDigit_of_mem_toDigits (by decide) (by decide) member

theorem value_digits (n : Nat) : Nat.ofDigitChars 10 (digits n) 0 = n :=
  Nat.ofDigitChars_ten_toDigits

/-- Only the number zero begins with that digit. -/
theorem head_digits {n : Nat} (nonzero : n ≠ 0) : (digits n).head? ≠ some '0' := by
  induction n using Nat.strongRecOn with
  | ind n ih =>
    by_cases small : n < 10
    · rw [digits, Nat.toDigits_of_lt_base small]
      simpa using nonzero
    · have front := ih (n / 10) (by omega) (by omega)
      obtain ⟨c, cs, same⟩ :=
        List.exists_cons_of_ne_nil (Nat.toDigits_ne_nil (b := 10) (n := n / 10))
      rw [digits, same] at front
      rw [digits, Nat.toDigits_of_base_le (by decide) (Nat.not_lt.mp small), same]
      simpa using front

theorem ascii_zeros (count : Nat) : ∀ c ∈ List.replicate count '0', c.isDigit = true := by
  intro c member
  rw [List.eq_of_mem_replicate member]
  decide

theorem ascii_append {v w : List Char} (first : ∀ c ∈ v, c.isDigit = true)
    (second : ∀ c ∈ w, c.isDigit = true) : ∀ c ∈ v ++ w, c.isDigit = true := by
  intro c member
  exact (List.mem_append.mp member).elim (first c) (second c)

/-- Positional notation is a numeral of the same number as the decimal. It has digits behind the
point, and no zero in front of another digit before it. -/
theorem positional_isNumeral (d : Decimal) : ∃ whole fraction : List Char,
    IsNumeral d.positional whole fraction ∧
      (Decimal.mk (Nat.ofDigitChars 10 (whole ++ fraction) 0) (-(fraction.length : Int))).number =
        d.number ∧
      fraction ≠ [] ∧
      ((d.coefficient = 0 → d.exponent = 0) → whole = ['0'] ∨ whole.head? ≠ some '0') := by
  obtain ⟨coefficient, exponent⟩ := d
  have ascii := ascii_digits coefficient
  have value := value_digits coefficient
  have positive : digits coefficient ≠ [] := Nat.toDigits_ne_nil
  have leads : coefficient ≠ 0 → (digits coefficient).head? ≠ some '0' := head_digits
  have zero : coefficient = 0 → digits coefficient = ['0'] := by
    rintro rfl
    rfl
  obtain ⟨ds, same⟩ : ∃ ds, digits coefficient = ds := ⟨_, rfl⟩
  rw [same] at ascii value positive leads zero
  have count := List.length_pos_iff.mpr positive
  simp only [positional, point, same]
  split
  · next below =>
    refine ⟨['0'], List.replicate (-(ds.length + exponent)).toNat '0' ++ ds, ⟨rfl, by simp, ?_⟩, ?_,
      by simp [positive], fun _ => .inl rfl⟩
    · exact ascii_append (ascii_zeros 1) (ascii_append (ascii_zeros _) ascii)
    · have places : -((List.replicate (-(ds.length + exponent)).toNat '0' ++ ds).length : Int) =
          exponent := by
        rw [List.length_append, List.length_replicate]
        omega
      rw [places, List.singleton_append, Nat.ofDigitChars_cons, Nat.ofDigitChars_append,
        Nat.mul_zero, Nat.zero_add, Nat.sub_self, Nat.ofDigitChars_replicate_zero, Nat.mul_zero,
        value]
  · next above =>
    split
    · next whole =>
      obtain ⟨zeros, rfl⟩ : ∃ zeros : Nat, exponent = zeros := ⟨exponent.toNat, by omega⟩
      have count : (ds.length + (zeros : Int)).toNat - ds.length = zeros := by omega
      rw [count]
      refine ⟨ds ++ List.replicate zeros '0', ['0'], ⟨rfl, by simp [positive], ?_⟩, ?_, by simp, ?_⟩
      · exact ascii_append (ascii_append ascii (ascii_zeros _)) (ascii_zeros 1)
      · have number : Nat.ofDigitChars 10 (ds ++ List.replicate zeros '0' ++ ['0']) 0 =
            coefficient * 10 ^ zeros * 10 := by
          rw [Nat.ofDigitChars_append, Nat.ofDigitChars_append, value,
            Nat.ofDigitChars_replicate_zero, Nat.ofDigitChars_cons, Nat.ofDigitChars_nil,
            Nat.sub_self, Nat.add_zero, Nat.mul_comm 10, Nat.mul_comm coefficient]
        rw [number]
        exact number_eq_iff.mpr (by simp [numerator, denominator])
      · intro small
        by_cases none : coefficient = 0
        · obtain rfl : zeros = 0 := by simpa using small none
          exact .inl (by rw [zero none]; rfl)
        · obtain ⟨c, cs, rfl⟩ := List.exists_cons_of_ne_nil positive
          exact .inr (leads none)
    · next part =>
      refine ⟨ds.take _, ds.drop _, ⟨rfl, ?_, ?_⟩, ?_, ?_, ?_⟩
      · simp [positive]
        omega
      · rw [List.take_append_drop]
        exact ascii
      · have places : -((ds.drop (ds.length + exponent).toNat).length : Int) = exponent := by
          rw [List.length_drop]
          omega
        rw [places, List.take_append_drop, value]
      · simp
        omega
      · intro small
        have some : coefficient ≠ 0 := by
          intro none
          have := small none
          omega
        refine .inr ?_
        rw [List.head?_take, if_neg (by omega)]
        exact leads some

/-- The shortest decimal of zero has no exponent. -/
theorem exponent_shortest {code : Nat} (zero : (shortest code).coefficient = 0) :
    (shortest code).exponent = 0 := by
  have none : code = 0 := by
    have same := code_shortest code
    have numerator : (shortest code).numerator * Binary64.scale =
        Binary64.units 0 * (shortest code).denominator := by
      simp [numerator, Binary64.units, zero]
    rw [← same, Decimal.code, numerator]
    exact Binary64.nearestCode_units 0 _ (denominator_pos _)
  rw [none]
  rfl

end Decimal

theorem ofNumeral_positional (code : Fin overflowCode) :
    Binary64.ofNumeral (Decimal.shortest code.val).positional = .finite false code := by
  obtain ⟨whole, fraction, numeral, same, _⟩ := (Decimal.shortest code.val).positional_isNumeral
  rw [Binary64.ofNumeral, numeral.ofNumeral_eq, Decimal.toBinary64, Decimal.code_congr same,
    Decimal.code_shortest, Binary64.ofCode, dif_pos code.isLt]

end Formulary
