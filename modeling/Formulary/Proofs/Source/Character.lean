import Formulary.OperatorTable

/-!
The kinds of characters keep apart: white space is no part of a word, the ASCII digits begin no
word, and an operator is none of what else may begin a token.
-/
namespace Formulary

namespace CharTable

variable {first last n : Nat} {later : CharTable}

theorem covers_head (lower : first ≤ n) (upper : n ≤ last) :
    covers ((first, last) :: later) n = true := by
  simp [covers, Nat.not_lt.mpr upper, lower]

theorem covers_before (lower : n < first) (upper : n ≤ last) :
    covers ((first, last) :: later) n = false := by
  simp [covers, Nat.not_lt.mpr upper, lower]

theorem offset_head (lower : first ≤ n) (upper : n ≤ last) :
    offset? ((first, last) :: later) n = some (n - first) := by
  simp [offset?, Nat.not_lt.mpr upper, lower]

theorem covers_dropWhile (table : CharTable) (lower : first ≤ n) :
    covers (table.dropWhile (·.2 < first)) n = table.covers n := by
  induction table with
  | nil => rfl
  | cons range later ih =>
    by_cases early : range.2 < first
    · rw [List.dropWhile_cons_of_pos (by simpa using early), ih, covers,
        if_pos (Nat.lt_of_lt_of_le early lower)]
    · rw [List.dropWhile_cons_of_neg (by simpa using early)]

/-- Tells in one walk over both tables that no character stands in both. -/
def apart : CharTable → CharTable → Bool
  | [], _ => true
  | (first, last) :: later, other =>
    let other := other.dropWhile (·.2 < first)
    first ≤ last && other.head?.all (fun r => last < r.1 && last ≤ r.2) && apart later other

theorem covers_of_apart {table other : CharTable} (disjoint : apart table other = true)
    (covered : table.covers n = true) : other.covers n = false := by
  induction table generalizing other with
  | nil => simp [covers] at covered
  | cons range later ih =>
    obtain ⟨first, last⟩ := range
    simp only [apart, Bool.and_eq_true, decide_eq_true_eq] at disjoint
    obtain ⟨⟨proper, next⟩, others⟩ := disjoint
    simp only [covers] at covered
    split at covered
    · next beyond =>
      rw [← covers_dropWhile other (by omega : first ≤ n)]
      exact ih others covered
    · have lower : first ≤ n := of_decide_eq_true covered
      rw [← covers_dropWhile other lower]
      cases left : other.dropWhile (·.2 < first) with
      | nil => rfl
      | cons r rest =>
        simp only [left, List.head?_cons, Option.all_some, Bool.and_eq_true,
          decide_eq_true_eq] at next
        exact covers_before (by omega) (by omega)

end CharTable

theorem takeWhile_of_break {p : Char → Bool} {cs rest : List Char} (inside : ∀ c ∈ cs, p c = true)
    (stops : ∀ c ∈ rest.head?, p c = false) : (cs ++ rest).takeWhile p = cs := by
  rw [List.takeWhile_append_of_pos inside]
  cases rest with
  | nil => simp
  | cons c rest => simp [stops c rfl]

theorem dropWhile_of_break {p : Char → Bool} {cs rest : List Char} (inside : ∀ c ∈ cs, p c = true)
    (stops : ∀ c ∈ rest.head?, p c = false) : (cs ++ rest).dropWhile p = rest := by
  rw [List.dropWhile_append_of_pos inside]
  cases rest with
  | nil => rfl
  | cons c rest => simp [stops c rfl]

theorem head_dropWhile {p : Char → Bool} {cs : List Char} :
    ∀ c ∈ (cs.dropWhile p).head?, p c = false := by
  intro c member
  have stops := List.head?_dropWhile_not p cs
  rwa [Option.mem_def.mp member] at stops

theorem isWordChar_eq_false {c : Char} : isWordChar c = false ↔
    isWordStart c = false ∧ isDigit c = false ∧ isContinuation c = false := by
  simp [isWordChar, and_assoc]

theorem isWordChar_of_isBlank {c : Char} (blank : isBlank c = true) : isWordChar c = false := by
  refine isWordChar_eq_false.mpr ⟨?_, ?_, ?_⟩
  · exact CharTable.covers_of_apart (by decide +kernel) blank
  · exact CharTable.covers_of_apart (by decide +kernel) blank
  · exact CharTable.covers_of_apart (by decide +kernel) blank

theorem isBlank_of_isWordChar {c : Char} (word : isWordChar c = true) : isBlank c = false := by
  cases blank : isBlank c with
  | false => rfl
  | true => simp [isWordChar_of_isBlank blank] at word

theorem ne_commentMark_of_isWordChar {c : Char} (word : isWordChar c = true) : c ≠ commentMark := by
  rintro rfl
  exact absurd word (by decide)

theorem isDigit_bounds {c : Char} (digit : c.isDigit = true) : 48 ≤ c.toNat ∧ c.toNat ≤ 57 :=
  Char.isDigit_iff_toNat.mp digit

theorem isDigit_of_ascii {c : Char} (digit : c.isDigit = true) : isDigit c = true := by
  obtain ⟨lower, upper⟩ := isDigit_bounds digit
  exact CharTable.covers_head lower upper

theorem isWordStart_of_isDigit {c : Char} (digit : isDigit c = true) : isWordStart c = false :=
  CharTable.covers_of_apart (by decide +kernel) digit

theorem not_surrogate (c : Char) :
    c.toNat < 0xd800 ∨ 0xe000 ≤ c.toNat ∧ c.toNat < 0x110000 := by
  have valid := c.valid
  simp only [UInt32.isValidChar, Nat.isValidChar] at valid
  change c.toNat < 0xd800 ∨ 0xdfff < c.toNat ∧ c.toNat < 0x110000 at valid
  omega

theorem isOperator_iff {c : Char} : isOperator c = true ↔
    isBlank c = false ∧ isWordChar c = false ∧ c ≠ commentMark ∧ punctuationKind? c = none := by
  simp [isOperator, and_assoc]

theorem punctuation_iff {c : Char} {kind : TokenKind} : punctuationKind? c = some kind ↔
    c = ';' ∧ kind = .separator ∨ c = '(' ∧ kind = .opening ∨ c = ')' ∧ kind = .closing ∨
      c = ',' ∧ kind = .comma := by
  simp only [punctuationKind?]
  split <;> simp_all [eq_comm]

theorem apart_of_punctuation {c : Char} {kind : TokenKind} (mark : punctuationKind? c = some kind) :
    isBlank c = false ∧ isWordChar c = false ∧ c ≠ '.' ∧ c ≠ commentMark := by
  rcases punctuation_iff.mp mark with ⟨rfl, _⟩ | ⟨rfl, _⟩ | ⟨rfl, _⟩ | ⟨rfl, _⟩ <;> decide

end Formulary
