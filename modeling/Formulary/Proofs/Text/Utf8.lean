import Formulary.Proofs.Source.Character
import Formulary.Text.Utf8
import Mathlib.Tactic.Ring

/-!
Encoding and decoding. The bytes of a text are decoded to that text. A character outside ASCII is a
leading byte and then its low bits, six at a time; the sequence that such a byte begins takes these
one after the other and so comes to the code of the character.
-/
namespace Formulary

namespace Utf8

/-- The bytes that carry the low bits of a code, six in each. -/
def sextets (code : Nat) : Nat → List UInt8
  | 0 => []
  | count + 1 => UInt8.ofNat (code / 64 ^ count % 64 + 0x80) :: sextets code count

theorem toNat_byte {n : Nat} (small : n < 256) : (UInt8.ofNat n).toNat = n := by
  rw [UInt8.toNat_ofNat', Nat.mod_eq_of_lt small]

variable {position : Nat}

theorem decodeFrom_ascii {b : UInt8} (ascii : b.toNat < 0x80) (rest : List UInt8) :
    decodeFrom position none (b :: rest) =
      (decodeFrom (position + 1) none rest).map (Char.ofNat b.toNat :: ·) := by
  have below : b < 0x80 := UInt8.lt_iff_toNat_lt.mpr ascii
  rw [decodeFrom, if_pos below]

theorem decodeFrom_begin {b : UInt8} {p : Pending} (begun : begin? position b = some p)
    (rest : List UInt8) :
    decodeFrom position none (b :: rest) = decodeFrom (position + 1) (some p) rest := by
  have above : ¬ b < 0x80 := by
    intro ascii
    have below : b < 0xc2 := UInt8.lt_trans ascii (by decide)
    simp [begin?, below] at begun
  rw [decodeFrom, if_neg above, begun]

/-- A sequence takes a byte between its bounds. It ends with it or misses one byte less. -/
theorem decodeFrom_sextet {p : Pending} {low : Nat} (small : low < 64)
    (lower : p.low.toNat ≤ low + 0x80) (upper : low + 0x80 ≤ p.high.toNat) (rest : List UInt8) :
    decodeFrom position (some p) (UInt8.ofNat (low + 0x80) :: rest) =
      if p.missing = 1 then
        (decodeFrom (position + 1) none rest).map (Char.ofNat (p.value * 64 + low) :: ·)
      else decodeFrom (position + 1)
        (some ⟨p.lead, p.start, p.value * 64 + low, p.missing - 1, 0x80, 0xbf⟩) rest := by
  have byte := toNat_byte (by omega : low + 0x80 < 256)
  have inside : p.low ≤ UInt8.ofNat (low + 0x80) ∧ UInt8.ofNat (low + 0x80) ≤ p.high := by
    rw [UInt8.le_iff_toNat_le, UInt8.le_iff_toNat_le, byte]
    exact ⟨lower, upper⟩
  rw [decodeFrom, if_pos inside, byte, Nat.add_sub_cancel]

/-- A sequence takes the bytes that it misses. Only the first of them has narrower bounds. -/
theorem decodeFrom_sextets {code count : Nat} {p : Pending} (missing : p.missing = count + 1)
    (lower : p.low.toNat ≤ code / 64 ^ count % 64 + 0x80)
    (upper : code / 64 ^ count % 64 + 0x80 ≤ p.high.toNat) (rest : List UInt8) :
    ∃ later, decodeFrom position (some p) (sextets code (count + 1) ++ rest) =
      (decodeFrom later none rest).map
        (Char.ofNat (p.value * 64 ^ (count + 1) + code % 64 ^ (count + 1)) :: ·) := by
  have small : code / 64 ^ count % 64 < 64 := Nat.mod_lt _ (by decide)
  induction count generalizing position p with
  | zero =>
    refine ⟨position + 1, ?_⟩
    rw [sextets, List.cons_append, decodeFrom_sextet small lower upper, if_pos missing]
    simp [sextets]
  | succ count ih =>
    have next : code / 64 ^ count % 64 < 64 := Nat.mod_lt _ (by decide)
    rw [sextets, List.cons_append, decodeFrom_sextet small lower upper, if_neg (by omega), missing]
    obtain ⟨later, decoded⟩ := @ih (position + 1)
      ⟨p.lead, p.start, p.value * 64 + code / 64 ^ (count + 1) % 64, count + 1, 0x80, 0xbf⟩ rfl
      (Nat.le_add_left _ _) (by simp; omega) next
    have value : (p.value * 64 + code / 64 ^ (count + 1) % 64) * 64 ^ (count + 1) +
        code % 64 ^ (count + 1) =
        p.value * 64 ^ (count + 1 + 1) + code % 64 ^ (count + 1 + 1) := by
      have low : code % 64 ^ (count + 1 + 1) = code % 64 ^ (count + 1) +
          64 ^ (count + 1) * (code / 64 ^ (count + 1) % 64) := Nat.mod_pow_succ
      rw [low, Nat.pow_succ _ (count + 1)]
      ring
    rw [value] at decoded
    exact ⟨later, decoded⟩

section

variable {b : UInt8}

theorem begin_two (lower : 0xc2 ≤ b.toNat) (upper : b.toNat < 0xe0) :
    begin? position b = some ⟨b, position, b.toNat - 0xc0, 1, 0x80, 0xbf⟩ := by
  have first : ¬ b < 0xc2 := mt UInt8.lt_iff_toNat_lt.mp (Nat.not_lt.mpr lower)
  have second : b < 0xe0 := UInt8.lt_iff_toNat_lt.mpr upper
  rw [begin?, if_neg first, if_pos second]

theorem begin_three (lower : 0xe0 ≤ b.toNat) (upper : b.toNat < 0xf0) :
    begin? position b = some ⟨b, position, b.toNat - 0xe0, 2,
      if b.toNat = 0xe0 then 0xa0 else 0x80, if b.toNat = 0xed then 0x9f else 0xbf⟩ := by
  have first : ¬ b < 0xc2 := mt UInt8.lt_iff_toNat_lt.mp (Nat.not_lt.mpr (by simp; omega))
  have second : ¬ b < 0xe0 := mt UInt8.lt_iff_toNat_lt.mp (Nat.not_lt.mpr lower)
  have third : b < 0xf0 := UInt8.lt_iff_toNat_lt.mpr upper
  rw [begin?, if_neg first, if_neg second, if_pos third]
  simp only [← UInt8.toNat_inj]
  rfl

theorem begin_four (lower : 0xf0 ≤ b.toNat) (upper : b.toNat < 0xf5) :
    begin? position b = some ⟨b, position, b.toNat - 0xf0, 3,
      if b.toNat = 0xf0 then 0x90 else 0x80, if b.toNat = 0xf4 then 0x8f else 0xbf⟩ := by
  have first : ¬ b < 0xc2 := mt UInt8.lt_iff_toNat_lt.mp (Nat.not_lt.mpr (by simp; omega))
  have second : ¬ b < 0xe0 := mt UInt8.lt_iff_toNat_lt.mp (Nat.not_lt.mpr (by simp; omega))
  have third : ¬ b < 0xf0 := mt UInt8.lt_iff_toNat_lt.mp (Nat.not_lt.mpr lower)
  have fourth : b < 0xf5 := UInt8.lt_iff_toNat_lt.mpr upper
  rw [begin?, if_neg first, if_neg second, if_neg third, if_pos fourth]
  simp only [← UInt8.toNat_inj]
  rfl

end

/-- The bytes of a character, by the size of its code. -/
theorem encodeChar_eq (c : Char) : String.utf8EncodeChar c =
    if c.toNat < 0x80 then [UInt8.ofNat c.toNat]
    else if c.toNat < 0x800 then UInt8.ofNat (c.toNat / 64 ^ 1 + 0xc0) :: sextets c.toNat 1
    else if c.toNat < 0x10000 then UInt8.ofNat (c.toNat / 64 ^ 2 + 0xe0) :: sextets c.toNat 2
    else UInt8.ofNat (c.toNat / 64 ^ 3 + 0xf0) :: sextets c.toNat 3 := by
  have scalar := not_surrogate c
  have code : c.val.toNat = c.toNat := rfl
  simp only [String.utf8EncodeChar, code]
  by_cases one : c.toNat < 0x80
  · rw [if_pos (by omega), if_pos one]
  by_cases two : c.toNat < 0x800
  · rw [if_neg (by omega), if_pos (by omega), if_neg one, if_pos two, Nat.mod_eq_of_lt (by omega)]
    simp [sextets]
  by_cases three : c.toNat < 0x10000
  · rw [if_neg (by omega), if_neg (by omega), if_pos (by omega), if_neg one, if_neg two,
      if_pos three, Nat.mod_eq_of_lt (by omega)]
    simp [sextets]
  · rw [if_neg (by omega), if_neg (by omega), if_neg (by omega), if_neg one, if_neg two,
      if_neg three, Nat.mod_eq_of_lt (by omega)]
    simp [sextets]

/-- A leading byte and the bytes that its sequence misses are decoded to the character whose code
they carry. -/
theorem decodeFrom_sequence {c : Char} {b : UInt8} {count : Nat} {p : Pending}
    (begun : begin? position b = some p) (missing : p.missing = count + 1)
    (lower : p.low.toNat ≤ c.toNat / 64 ^ count % 64 + 0x80)
    (upper : c.toNat / 64 ^ count % 64 + 0x80 ≤ p.high.toNat)
    (value : p.value = c.toNat / 64 ^ (count + 1)) (rest : List UInt8) :
    ∃ later, decodeFrom position none (b :: (sextets c.toNat (count + 1) ++ rest)) =
      (decodeFrom later none rest).map (c :: ·) := by
  obtain ⟨later, decoded⟩ := @decodeFrom_sextets (position + 1) _ _ _ missing lower upper rest
  have code : p.value * 64 ^ (count + 1) + c.toNat % 64 ^ (count + 1) = c.toNat := by
    rw [value, Nat.div_add_mod']
  rw [code, Char.ofNat_toNat] at decoded
  exact ⟨later, by rw [decodeFrom_begin begun, decoded]⟩

theorem decodeFrom_encodeChar (c : Char) (rest : List UInt8) :
    ∃ later, decodeFrom position none (String.utf8EncodeChar c ++ rest) =
      (decodeFrom later none rest).map (c :: ·) := by
  have scalar := not_surrogate c
  rw [encodeChar_eq]
  split
  · next ascii =>
    have byte := toNat_byte (by omega : c.toNat < 256)
    refine ⟨position + 1, ?_⟩
    rw [List.singleton_append, decodeFrom_ascii (by omega), byte, Char.ofNat_toNat]
  · split
    · next two =>
      have byte := toNat_byte (by omega : c.toNat / 64 ^ 1 + 0xc0 < 256)
      refine decodeFrom_sequence (begin_two (by omega) (by omega)) rfl ?_ ?_ ?_ rest
      · simp
      · simp
        omega
      · exact (congrArg (· - 0xc0) byte).trans (Nat.add_sub_cancel _ _)
    · split
      · next three =>
        have byte := toNat_byte (by omega : c.toNat / 64 ^ 2 + 0xe0 < 256)
        refine decodeFrom_sequence (begin_three (by omega) (by omega)) rfl ?_ ?_ ?_ rest
        · dsimp only
          split
          · simp
            omega
          · simp
        · dsimp only
          split
          · simp
            omega
          · simp
            omega
        · exact (congrArg (· - 0xe0) byte).trans (Nat.add_sub_cancel _ _)
      · next four =>
        have byte := toNat_byte (by omega : c.toNat / 64 ^ 3 + 0xf0 < 256)
        refine decodeFrom_sequence (begin_four (by omega) (by omega)) rfl ?_ ?_ ?_ rest
        · dsimp only
          split
          · simp
            omega
          · simp
        · dsimp only
          split
          · simp
            omega
          · simp
            omega
        · exact (congrArg (· - 0xf0) byte).trans (Nat.add_sub_cancel _ _)

theorem decodeFrom_encode (text : List Char) : decodeFrom position none (encode text) = .ok text := by
  induction text generalizing position with
  | nil => rfl
  | cons c text ih =>
    obtain ⟨later, decoded⟩ := decodeFrom_encodeChar c (encode text)
    rw [encode, List.flatMap_cons, ← encode, decoded, ih]
    rfl

theorem decode_encode (text : List Char) : decode (encode text) = .ok text := decodeFrom_encode text

end Utf8

end Formulary
