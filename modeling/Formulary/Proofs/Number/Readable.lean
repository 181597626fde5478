import Formulary.Proofs.Number.Numeral

/-!
Every numeral of the language can be read. As free number text it has no white space, sign or
exponent, and its digits count as the ASCII digits of their values, so reading it gives the number
that its own digits stand for.
-/
namespace Formulary

namespace Binary64

theorem nearestCode_of_small {num den : Nat} (small : 2 * num < den) : nearestCode num den = 0 := by
  have zero : floorCode 0 = 0 := by decide
  have half : units 0 + units (0 + 1) = 1 := by decide
  simp only [nearestCode, Nat.div_eq_of_lt (by omega : num < den), zero, half, Nat.one_mul,
    if_pos small]

/-- A ratio of units that is large enough lies beyond the finite numbers. -/
theorem overflowCode_le_nearestCode {num den k : Nat} (positive : 0 < den) (far : 2100 ≤ k)
    (large : 2 ^ k * den ≤ num) : overflowCode ≤ nearestCode num den := by
  have quotient : 2 ^ k ≤ num / den := (Nat.le_div_iff_mul_le positive).mpr large
  have nonzero : num / den ≠ 0 :=
    Nat.ne_of_gt (Nat.lt_of_lt_of_le (Nat.pow_pos (by decide)) quotient)
  have exponent : k ≤ (num / den).log2 := (Nat.le_log2 nonzero).mpr quotient
  have below : overflowCode ≤ floorCode (num / den) := by
    have field : 0x7ff ≤ (num / den).log2 - 52 := by omega
    exact Nat.le_trans (Nat.mul_le_mul_right _ field) (Nat.le_add_right _ _)
  unfold nearestCode
  dsimp only
  split
  · exact below
  · split <;> omega

theorem ofCode_ne_nan (negative : Bool) (code : Nat) : ofCode negative code ≠ .nan := by
  unfold ofCode
  split <;> simp

theorem isNegative_ofCode (negative : Bool) (code : Nat) :
    (ofCode negative code).isNegative = negative := by
  unfold ofCode
  split <;> rfl

end Binary64

namespace FreeNumber

/-- A decimal so small that it is not multiplied out is nearest to zero. -/
theorem code_of_out_of_reach {d : Decimal}
    (small : d.exponent + ((d.coefficient.log2 : Int) + 1) < -400) : d.code = 0 := by
  obtain ⟨coefficient, exponent⟩ := d
  dsimp only at small
  obtain ⟨k, rfl⟩ : ∃ k : Nat, exponent = -(k : Int) := ⟨(-exponent).toNat, by omega⟩
  have lower : coefficient < 2 ^ (coefficient.log2 + 1) := Nat.lt_log2_self
  have upper : coefficient.log2 + 402 ≤ k := by omega
  refine Binary64.nearestCode_of_small ?_
  have numerator : (Decimal.mk coefficient (-(k : Int))).numerator = coefficient := by
    simp [Decimal.numerator]
  have denominator : (Decimal.mk coefficient (-(k : Int))).denominator = 10 ^ k := by
    simp [Decimal.denominator]
  have bounded (n : Nat) : 2 * (coefficient * 2 ^ n) < 2 ^ (coefficient.log2 + 1 + (n + 1)) := by
    rw [Nat.pow_add _ _ (n + 1), Nat.pow_succ 2 n, Nat.mul_left_comm, Nat.mul_comm 2]
    exact Nat.mul_lt_mul_of_pos_right lower (Nat.mul_pos (Nat.pow_pos (by decide)) (by decide))
  rw [numerator, denominator, Binary64.scale]
  calc 2 * (coefficient * 2 ^ 1074) < 2 ^ (coefficient.log2 + 1 + (1074 + 1)) := bounded 1074
    _ ≤ 2 ^ (3 * k) := Nat.pow_le_pow_right (by decide) (by omega)
    _ = 8 ^ k := by rw [Nat.pow_mul]
    _ ≤ 10 ^ k := Nat.pow_le_pow_left (by decide) k

/-- A decimal so large that it is not multiplied out lies beyond the finite numbers. -/
theorem overflowCode_le_code {d : Decimal} (nonzero : d.coefficient ≠ 0)
    (large : 400 < d.exponent) :
    overflowCode ≤ d.code := by
  obtain ⟨coefficient, exponent⟩ := d
  dsimp only at nonzero large
  obtain ⟨k, rfl⟩ : ∃ k : Nat, exponent = k := ⟨exponent.toNat, by omega⟩
  have numerator : (Decimal.mk coefficient k).numerator = coefficient * 10 ^ k := by
    simp [Decimal.numerator]
  have denominator : (Decimal.mk coefficient k).denominator = 1 := by simp [Decimal.denominator]
  have tens : 2 ^ (3 * k) ≤ coefficient * 10 ^ k := by
    rw [Nat.pow_mul]
    calc 8 ^ k ≤ 10 ^ k := Nat.pow_le_pow_left (by decide) k
      _ ≤ coefficient * 10 ^ k := Nat.le_mul_of_pos_left _ (Nat.pos_of_ne_zero nonzero)
  refine Binary64.overflowCode_le_nearestCode (k := 3 * k + 1074) (Decimal.denominator_pos _)
    (by omega) ?_
  rw [numerator, denominator, Nat.mul_one, Binary64.scale, Nat.pow_add]
  exact Nat.mul_le_mul_right _ tens

theorem scaled_eq (negative : Bool) (d : Decimal) : scaled negative d = d.toBinary64 negative := by
  simp only [scaled]
  split
  · next small =>
    have zero : d.code = 0 := by
      rcases small with none | small
      · refine Binary64.nearestCode_of_small ?_
        simpa [Decimal.numerator, none] using d.denominator_pos
      · exact code_of_out_of_reach small
    rw [Decimal.toBinary64, zero]
  · next apart =>
    split
    · next large =>
      have beyond := overflowCode_le_code (fun zero => apart (.inl zero)) large
      rw [Decimal.toBinary64, Binary64.ofCode, dif_neg (Nat.not_lt.mpr beyond)]
    · rfl

theorem isAsciiDigit_eq (c : Char) : isAsciiDigit c = c.isDigit := by
  simp only [isAsciiDigit, Char.isDigit, ge_iff_le]
  rfl

theorem normal_point : normal '.' = '.' := by decide

/-- A digit becomes the ASCII digit of its value. -/
theorem normal_digit {c : Char} (digit : isDigit c = true) :
    (normal c).isDigit = true ∧ digitValue? (normal c) = digitValue? c := by
  unfold normal
  split
  · next ascii =>
    refine ⟨Char.isDigit_iff_toNat.mpr ?_, rfl⟩
    by_cases upper : c.toNat ≤ 0x39
    · refine ⟨?_, upper⟩
      by_cases lower : c.toNat < 0x30
      · have outside : isDigit c = false := CharTable.covers_before lower upper
        simp [outside] at digit
      · exact Nat.not_lt.mp lower
    · have outside : isDigit c = false := by
        have later : ∀ n < 0x7f, 0x39 < n → digitTable.covers n = false := by decide
        exact later c.toNat ascii (by omega)
      simp [outside] at digit
  · rw [if_neg (by simp [isBlank_of_isWordChar (isWordChar_of_isDigit digit)])]
    have found : (digitTable.offset? c.toNat).isSome = true := by
      rw [CharTable.offset_isSome]
      exact digit
    obtain ⟨k, offset⟩ := Option.isSome_iff_exists.mp found
    have value : digitValue? c = some (k % 10) := by rw [digitValue?, offset, Option.map_some]
    have written : ∀ n < 10, (Nat.digitChar n).isDigit = true ∧
        (Nat.digitChar n).toNat - 48 = n := by decide
    obtain ⟨ascii, back⟩ := written (k % 10) (Nat.mod_lt k (by decide))
    simp only [value]
    exact ⟨ascii, by rw [digitValue_of_ascii ascii, back]⟩

theorem digitsValue_normal {cs : List Char} (digits : ∀ c ∈ cs, isDigit c = true) :
    digitsValue (cs.map normal) = digitsValue cs := by
  rw [digitsValue, digitsValue, List.foldl_map]
  have general (start : Nat) :
      cs.foldl (fun n c => 10 * n + (digitValue? (normal c)).getD 0) start =
        cs.foldl (fun n c => 10 * n + (digitValue? c).getD 0) start := by
    induction cs generalizing start with
    | nil => rfl
    | cons c cs ih =>
      obtain ⟨here, later⟩ := List.forall_mem_cons.mp digits
      rw [List.foldl_cons, List.foldl_cons, (normal_digit here).2, ih later]
  exact general 0

theorem joinDigits_eq {cs : List Char} (plain : ∀ c ∈ cs, c ≠ '_') (after : Bool) :
    joinDigits after cs = some cs := by
  induction cs generalizing after with
  | nil => simp [joinDigits]
  | cons c cs ih =>
    obtain ⟨other, later⟩ := List.forall_mem_cons.mp plain
    unfold joinDigits
    split
    · next empty => cases empty
    · next d rest same => exact absurd (List.cons.inj same).1 other
    · next d rest _ same =>
      obtain ⟨rfl, rfl⟩ := List.cons.inj same
      rw [if_neg (by simpa using other), ih later, Option.map_some]

theorem trim_eq {cs : List Char} (plain : ∀ c ∈ cs, isPadding c = false) : trim cs = cs := by
  have kept {ds : List Char} (plain : ∀ c ∈ ds, isPadding c = false) :
      ds.dropWhile isPadding = ds := by
    cases ds with
    | nil => rfl
    | cons d ds => rw [List.dropWhile_cons_of_neg (by simp [plain d (by simp)])]
  rw [trim, kept plain, kept (by simpa using plain), List.reverse_reverse]

/-- The characters of a numeral in ASCII. -/
def IsPlain (c : Char) : Prop := c.isDigit = true ∨ c = '.'

theorem IsPlain.apart {c : Char} (plain : IsPlain c) : isPadding c = false ∧ c ≠ '_' ∧ c ≠ '-' ∧
    c ≠ '+' ∧ c ≠ 'e' ∧ c ≠ 'E' ∧ c.toLower ≠ 'i' ∧ c.toLower ≠ 'n' := by
  rcases plain with digit | rfl
  · obtain ⟨lower, upper⟩ := isDigit_bounds digit
    have all : ∀ n < 58, 48 ≤ n → isPadding (Char.ofNat n) = false ∧ Char.ofNat n ≠ '_' ∧
        Char.ofNat n ≠ '-' ∧ Char.ofNat n ≠ '+' ∧ Char.ofNat n ≠ 'e' ∧ Char.ofNat n ≠ 'E' ∧
        (Char.ofNat n).toLower ≠ 'i' ∧ (Char.ofNat n).toLower ≠ 'n' := by decide
    have result := all c.toNat (by omega) lower
    rwa [Char.ofNat_toNat] at result
  · decide

theorem word_none {c : Char} {cs : List Char} (plain : IsPlain c) (negative : Bool) :
    word? negative (c :: cs) = none := by
  obtain ⟨_, _, _, _, _, _, notI, notN⟩ := plain.apart
  unfold word?
  split
  · next same => exact absurd (List.cons.inj (String.ofList_injective same)).1 notI
  · next same => exact absurd (List.cons.inj (String.ofList_injective same)).1 notI
  · next same => exact absurd (List.cons.inj (String.ofList_injective same)).1 notN
  · rfl

theorem mantissa_number {whole : List Char} {fraction : Option (List Char)} (nonempty : whole ≠ [])
    (ascii : ∀ c ∈ whole ++ fraction.getD [], c.isDigit = true) :
    mantissa? (whole ++ fraction.elim [] ('.' :: ·)) =
      some ⟨digitsValue (whole ++ fraction.getD []), -((fraction.getD []).length : Int)⟩ := by
  obtain ⟨early, late⟩ := List.forall_mem_append.mp ascii
  have digits : ∀ c ∈ whole, isAsciiDigit c = true := by simpa only [isAsciiDigit_eq] using early
  have stops : ∀ c ∈ (fraction.elim [] ('.' :: ·)).head?, isAsciiDigit c = false := by
    cases fraction with
    | none => simp
    | some ds =>
      intro c member
      obtain rfl := Option.some.inj member
      decide
  simp only [mantissa?, takeWhile_of_break digits stops, dropWhile_of_break digits stops]
  cases fraction with
  | none => simp [nonempty]
  | some ds =>
    have all : ds.all isAsciiDigit = true := by
      rw [List.all_eq_true]
      intro c member
      rw [isAsciiDigit_eq]
      exact late c member
    simp [nonempty, all]

def isExponentMark (c : Char) : Bool := c == 'e' || c == 'E'

/-- The decimal that a text without sign is, before it is rounded. -/
def decimal? (cs : List Char) : Option Decimal :=
  match mantissa? (cs.takeWhile (!isExponentMark ·)), cs.dropWhile (!isExponentMark ·) with
  | some d, [] => some d
  | some d, _ :: e => (signed? e).map fun n => ⟨d.coefficient, d.exponent + n⟩
  | none, _ => none

theorem magnitude_eq (negative : Bool) (cs : List Char) :
    magnitude? negative cs = (decimal? cs).map (·.toBinary64 negative) := by
  simp only [magnitude?, decimal?, isExponentMark, scaled_eq]
  generalize mantissa? (cs.takeWhile fun c => !(c == 'e' || c == 'E')) = front
  generalize (cs.dropWhile fun c => !(c == 'e' || c == 'E')) = back
  cases front with
  | none => rfl
  | some d =>
    cases back with
    | nil => rfl
    | cons mark e => simp only [Option.map_map, Function.comp_def]

theorem decimal_plain {text : List Char} {d : Decimal} (plain : ∀ c ∈ text, IsPlain c)
    (read : mantissa? text = some d) : decimal? text = some d := by
  have unmarked : ∀ c ∈ text, (!isExponentMark c) = true := by
    intro c member
    obtain ⟨_, _, _, _, small, large, _⟩ := (plain c member).apart
    simp [isExponentMark, small, large]
  have ends : ∀ c ∈ ([] : List Char).head?, (!isExponentMark c) = false := by simp
  have front := takeWhile_of_break unmarked ends
  have back := dropWhile_of_break unmarked ends
  rw [List.append_nil] at front back
  simp only [decimal?, front, back, read]

theorem sign_plain {c : Char} {cs : List Char} (plain : IsPlain c) :
    sign (c :: cs) = (false, c :: cs) := by
  obtain ⟨_, _, minus, plus, _⟩ := plain.apart
  unfold sign
  split
  · next same => exact absurd (List.cons.inj same).1 minus
  · next same => exact absurd (List.cons.inj same).1 plus
  · rfl

end FreeNumber

open FreeNumber

namespace IsNumber

variable {cs whole : List Char} {fraction : Option (List Char)}

/-- The numeral with ASCII digits of the same values. -/
theorem normalized (number : IsNumber cs whole fraction) :
    cs.map normal = whole.map normal ++ (fraction.map (·.map normal)).elim [] ('.' :: ·) ∧
      (∀ c ∈ whole.map normal ++ (fraction.map (·.map normal)).getD [], c.isDigit = true) ∧
      digitsValue (whole.map normal ++ (fraction.map (·.map normal)).getD []) =
        digitsValue (whole ++ fraction.getD []) := by
  obtain ⟨rfl, _, digits⟩ := number
  have same : whole.map normal ++ (fraction.map (·.map normal)).getD [] =
      (whole ++ fraction.getD []).map normal := by cases fraction <;> simp
  rw [same]
  refine ⟨by cases fraction <;> simp [normal_point], ?_, digitsValue_normal digits⟩
  intro c member
  obtain ⟨d, present, rfl⟩ := List.mem_map.mp member
  exact (normal_digit (digits d present)).1

end IsNumber

/-- A numeral is free number text for the number that its digits stand for. -/
theorem read_number {cs whole : List Char} {fraction : Option (List Char)}
    (number : IsNumber cs whole fraction) :
    Binary64.read? (String.ofList cs) = some (.ofNumeral cs) := by
  obtain ⟨same, ascii, value⟩ := number.normalized
  have nonempty : whole.map normal ≠ [] := by simpa using number.nonempty
  have read := mantissa_number nonempty ascii
  have places : ((fraction.map (·.map normal)).getD []).length = (fraction.getD []).length := by
    cases fraction <;> simp
  rw [← same, value, places, ← number.ofNumeral_eq] at read
  have plain : ∀ c ∈ cs.map normal, IsPlain c := by
    rw [same]
    intro c member
    rcases List.mem_append.mp member with early | late
    · exact .inl (ascii c (List.mem_append_left _ early))
    · cases fraction with
      | none => simp at late
      | some ds =>
        rcases List.mem_cons.mp late with rfl | digit
        · exact .inr rfl
        · exact .inl (ascii c (List.mem_append_right _ digit))
  have trimmed := trim_eq fun c member => (plain c member).apart.1
  have joined := joinDigits_eq (fun c member => (plain c member).apart.2.1) false
  have magnitude := magnitude_eq false (cs.map normal)
  rw [decimal_plain plain read, Option.map_some] at magnitude
  obtain ⟨c, text, first⟩ : ∃ c text, cs.map normal = c :: text := by
    refine List.exists_cons_of_ne_nil ?_
    rw [same]
    simp [nonempty]
  have begins : IsPlain c := plain c (by simp [first])
  rw [Binary64.read?, String.toList_ofList, trimmed, joined, Option.bind_some]
  rw [first] at magnitude ⊢
  simp only [sign_plain begins, word_none begins, magnitude, Option.none_or]
  rfl

end Formulary
