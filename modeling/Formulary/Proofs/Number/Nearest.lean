import Formulary.Number.Decimal

/-!
Rounding to the nearest magnitude. Magnitudes grow with their codes, each is the nearest to
itself, and which one is nearest depends on a ratio alone and not on how it is written. So the
decimal that is chosen to stand for a magnitude reads back as it.
-/
namespace Formulary

namespace Binary64

theorem units_normal {field fraction : Nat} (bound : fraction < 2 ^ 52) :
    units ((field + 1) * 2 ^ 52 + fraction) = (2 ^ 52 + fraction) * 2 ^ field := by
  have large : ¬ (field + 1) * 2 ^ 52 + fraction < 2 ^ 52 := by omega
  have modulus : ((field + 1) * 2 ^ 52 + fraction) % 2 ^ 52 = fraction := by omega
  have quotient : ((field + 1) * 2 ^ 52 + fraction) / 2 ^ 52 - 1 = field := by omega
  simp only [units, if_neg large, modulus, quotient]

theorem code_cases (code : Nat) :
    code < 2 ^ 52 ∨ ∃ field fraction : Nat,
      fraction < 2 ^ 52 ∧ code = (field + 1) * 2 ^ 52 + fraction := by
  by_cases small : code < 2 ^ 52
  · exact .inl small
  · refine .inr ⟨code / 2 ^ 52 - 1, code % 2 ^ 52, Nat.mod_lt _ (by decide), ?_⟩
    omega

theorem units_lt_succ (code : Nat) : units code < units (code + 1) := by
  rcases code_cases code with small | ⟨field, fraction, bound, rfl⟩
  · by_cases next : code + 1 < 2 ^ 52
    · simp only [units, if_pos small, if_pos next]
      omega
    · have last : code + 1 = (0 + 1) * 2 ^ 52 + 0 := by omega
      rw [last, units_normal (by decide)]
      simp only [units, if_pos small]
      omega
  · have positive : 0 < 2 ^ field := Nat.pow_pos (by decide)
    by_cases next : fraction + 1 < 2 ^ 52
    · rw [units_normal bound, Nat.add_assoc, units_normal next]
      exact Nat.mul_lt_mul_of_pos_right (by omega) positive
    · have last : (field + 1) * 2 ^ 52 + fraction + 1 = (field + 1 + 1) * 2 ^ 52 + 0 := by omega
      rw [last, units_normal bound, units_normal (by decide)]
      calc (2 ^ 52 + fraction) * 2 ^ field < 2 ^ 53 * 2 ^ field :=
            Nat.mul_lt_mul_of_pos_right (by omega) positive
        _ = (2 ^ 52 + 0) * 2 ^ (field + 1) := by
            rw [Nat.pow_succ 2 field]
            omega

theorem floorCode_units (code : Nat) : floorCode (units code) = code := by
  rcases code_cases code with small | ⟨field, fraction, bound, rfl⟩
  · have exponent : code.log2 - 52 = 0 := by
      by_cases zero : code = 0
      · subst zero
        decide
      · have := (Nat.log2_lt zero).mpr small
        omega
    have same : units code = code := if_pos small
    rw [floorCode, same, exponent, Nat.zero_mul, Nat.zero_add, Nat.pow_zero, Nat.div_one]
  · have positive : 0 < 2 ^ field := Nat.pow_pos (by decide)
    have lower : 2 ^ (field + 52) ≤ (2 ^ 52 + fraction) * 2 ^ field := by
      rw [Nat.pow_add, Nat.mul_comm]
      exact Nat.mul_le_mul_right _ (by omega)
    have upper : (2 ^ 52 + fraction) * 2 ^ field < 2 ^ (field + 53) := by
      rw [Nat.pow_add, Nat.mul_comm (2 ^ field)]
      exact Nat.mul_lt_mul_of_pos_right (by omega) positive
    have exponent : ((2 ^ 52 + fraction) * 2 ^ field).log2 = field + 52 := by
      have nonzero : (2 ^ 52 + fraction) * 2 ^ field ≠ 0 := by
        have := Nat.pow_pos (n := field + 52) (by decide : 0 < 2)
        omega
      have := (Nat.le_log2 nonzero).mpr lower
      have := (Nat.log2_lt nonzero).mpr upper
      omega
    rw [units_normal bound, floorCode, exponent, Nat.add_sub_cancel, Nat.mul_div_cancel _ positive]
    omega

theorem nearestCode_units (code den : Nat) (positive : 0 < den) :
    nearestCode (units code * den) den = code := by
  have below : units code * den / den = units code := Nat.mul_div_cancel _ positive
  have nearer : 2 * (units code * den) < (units code + units (code + 1)) * den := by
    rw [← Nat.mul_assoc]
    exact Nat.mul_lt_mul_of_pos_right (by have := units_lt_succ code; omega) positive
  simp only [nearestCode, below, floorCode_units, if_pos nearer]

theorem nearestCode_scale (num den factor : Nat) (positive : 0 < factor) :
    nearestCode (num * factor) (den * factor) = nearestCode num den := by
  have compare (a b : Nat) : a * factor < b * factor ↔ a < b :=
    Nat.mul_lt_mul_right positive
  simp only [nearestCode, Nat.mul_div_mul_right _ _ positive, ← Nat.mul_assoc, compare]

theorem nearestCode_congr {num den num' den' : Nat} (positive : 0 < den) (positive' : 0 < den')
    (same : num * den' = num' * den) : nearestCode num den = nearestCode num' den' := by
  calc nearestCode num den = nearestCode (num * den') (den * den') :=
        (nearestCode_scale num den den' positive').symm
    _ = nearestCode (num' * den) (den' * den) := by rw [same, Nat.mul_comm den den']
    _ = nearestCode num' den' := nearestCode_scale num' den' den positive

end Binary64

namespace Decimal

open Binary64

theorem denominator_pos (d : Decimal) : 0 < d.denominator := Nat.pow_pos (by decide)

/-- The number that a decimal is, exactly. -/
def number (d : Decimal) : Rat := mkRat d.numerator d.denominator

theorem number_eq_iff {d d' : Decimal} : d.number = d'.number ↔
    d.numerator * d'.denominator = d'.numerator * d.denominator := by
  have first : d.denominator ≠ 0 := Nat.ne_of_gt d.denominator_pos
  have second : d'.denominator ≠ 0 := Nat.ne_of_gt d'.denominator_pos
  rw [number, number, Rat.mkRat_eq_iff first second]
  omega

/-- Decimals of one number are nearest to one magnitude. -/
theorem code_congr {d d' : Decimal} (same : d.number = d'.number) : d.code = d'.code := by
  refine nearestCode_congr d.denominator_pos d'.denominator_pos ?_
  rw [Nat.mul_right_comm, number_eq_iff.mp same, Nat.mul_right_comm]

theorem code_exact (code : Nat) : (exact code).code = code := by
  have powers (u n : Nat) : u * 5 ^ n * 10 ^ 0 * 2 ^ n = u * 10 ^ n := by
    rw [Nat.pow_zero, Nat.mul_one, Nat.mul_assoc, ← Nat.mul_pow]
  have numerator : (exact code).numerator = units code * 5 ^ 1074 * 10 ^ 0 := rfl
  have exponent : (-(-1074 : Int)).toNat = 1074 := rfl
  have denominator : (exact code).denominator = 10 ^ 1074 := by
    simp only [Decimal.denominator, exact, exponent]
  have same : (exact code).numerator * scale = units code * (exact code).denominator := by
    rw [numerator, denominator, scale]
    exact powers (units code) 1074
  rw [Decimal.code, same]
  exact nearestCode_units code _ (denominator_pos _)

theorem code_candidate {code count : Nat} {d : Decimal} (found : candidate? code count = some d) :
    d.code = code := by
  simp only [candidate?] at found
  split at found
  · next below =>
    split at found
    · next above =>
      obtain rfl := Option.some.inj found
      split
      · exact below
      · exact above
    · obtain rfl := Option.some.inj found
      exact below
  · split at found
    · next above =>
      obtain rfl := Option.some.inj found
      exact above
    · cases found

theorem code_shortestFrom (code tries count : Nat) : (shortestFrom code tries count).code = code := by
  induction tries generalizing count with
  | zero => exact code_exact code
  | succ tries ih =>
    simp only [shortestFrom]
    cases found : candidate? code count with
    | none => exact ih (count + 1)
    | some d => exact code_candidate found

theorem code_shortest (code : Nat) : (shortest code).code = code := by
  simp only [shortest]
  split
  · next zero =>
    have same : (Decimal.mk 0 0).numerator * scale = units code * (Decimal.mk 0 0).denominator := by
      simp [numerator, units, zero]
    rw [Decimal.code, same]
    exact nearestCode_units code _ (denominator_pos _)
  · exact code_shortestFrom code 17 1

end Decimal

end Formulary
