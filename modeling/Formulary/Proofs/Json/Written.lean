import Formulary.Proofs.Json.Grammar

/-!
What is written is JSON. In every layout the text of a value without infinities and NaN is one that
the grammar derives, it stands for the value that was written, and it holds nothing but ASCII.
-/
namespace Formulary

def IsAscii (text : List Char) : Prop := ∀ c ∈ text, c.toNat < 128

instance (text : List Char) : Decidable (IsAscii text) :=
  List.decidableBAll (fun c : Char => c.toNat < 128) text

namespace Json

theorem ascii_append {text rest : List Char} (front : IsAscii text) (back : IsAscii rest) :
    IsAscii (text ++ rest) := List.forall_mem_append.mpr ⟨front, back⟩

theorem ascii_cons {c : Char} {rest : List Char} (front : c.toNat < 128) (back : IsAscii rest) :
    IsAscii (c :: rest) := List.forall_mem_cons.mpr ⟨front, back⟩

/-! ## Escapes -/

theorem hexFrom_hexText (m width n : Nat) :
    hexFrom? m (hexText width n) = some (m * 16 ^ width + n % 16 ^ width) := by
  have digit : ∀ d < 16, hexDigit? (Nat.digitChar d) = some d := by decide
  induction width generalizing n with
  | zero => simp [hexText, hexFrom?, Nat.mod_one]
  | succ width ih =>
    have front := ih (n / 16)
    unfold hexFrom? at front ⊢
    have whole : n % 16 ^ (width + 1) = 16 * (n / 16 % 16 ^ width) + n % 16 := by
      rw [Nat.pow_succ, Nat.mul_comm (16 ^ width), Nat.mod_mul]
      omega
    rw [hexText, List.foldlM_append, front]
    simp only [Option.bind_eq_bind, Option.bind_some, List.foldlM_cons, List.foldlM_nil,
      digit (n % 16) (Nat.mod_lt n (by decide)), Option.map_some]
    rw [whole, Nat.pow_succ, Nat.mul_add, Nat.add_assoc, Nat.mul_left_comm,
      Nat.mul_comm 16 (16 ^ width)]
    rfl

theorem hexText_four {n : Nat} (small : n < 0x10000) : ∃ x₁ x₂ x₃ x₄ : Char,
    hexText 4 n = [x₁, x₂, x₃, x₄] ∧ hexFrom? 0 [x₁, x₂, x₃, x₄] = some n := by
  refine ⟨_, _, _, _, rfl, ?_⟩
  have value := hexFrom_hexText 0 4 n
  rw [Nat.zero_mul, Nat.zero_add, Nat.mod_eq_of_lt (by simpa using small)] at value
  exact value

theorem ascii_hexText (width n : Nat) : IsAscii (hexText width n) := by
  have digit : ∀ d < 16, (Nat.digitChar d).toNat < 128 := by decide
  induction width generalizing n with
  | zero => simp [hexText, IsAscii]
  | succ width ih =>
    have last := digit (n % 16) (Nat.mod_lt n (by decide))
    exact ascii_append (ih (n / 16)) (List.forall_mem_singleton.mpr last)

theorem ascii_unicodeEscape (unit : Nat) : IsAscii (unicodeEscape unit) :=
  ascii_cons (by decide) (ascii_cons (by decide) (ascii_hexText 4 unit))

/-- A character is written behind a mark, as it is, or by the numbers of one or two units. -/
theorem escapedChar_cases (c : Char) :
    (∃ mark, (mark, c) ∈ shortEscapes ∧ mark.toNat < 128 ∧ escapedChar c = ['\\', mark]) ∨
    (0x20 ≤ c.toNat ∧ c.toNat < 127 ∧ c ≠ '"' ∧ c ≠ '\\' ∧ escapedChar c = [c]) ∨
    (c.toNat < 0x10000 ∧ escapedChar c = unicodeEscape c.toNat) ∨
    (0x10000 ≤ c.toNat ∧ escapedChar c =
      unicodeEscape (0xd800 + (c.toNat - 0x10000) / 0x400) ++
        unicodeEscape (0xdc00 + (c.toNat - 0x10000) % 0x400)) := by
  unfold escapedChar
  split
  · next same => rcases same with rfl | rfl <;> exact .inl ⟨_, by decide, by decide, rfl⟩
  next apart =>
  obtain ⟨unquoted, unescaped⟩ := not_or.mp apart
  split
  · next same => exact .inl ⟨'n', by rw [same]; decide, by decide, rfl⟩
  split
  · next same => exact .inl ⟨'r', by rw [same]; decide, by decide, rfl⟩
  split
  · next same => exact .inl ⟨'t', by rw [same]; decide, by decide, rfl⟩
  split
  · next same =>
    obtain rfl : c = '\x08' := Char.toNat_inj.mp same
    exact .inl ⟨'b', by decide, by decide, rfl⟩
  split
  · next same =>
    obtain rfl : c = '\x0c' := Char.toNat_inj.mp same
    exact .inl ⟨'f', by decide, by decide, rfl⟩
  split
  · next printed => exact .inr (.inl ⟨printed.1, printed.2, unquoted, unescaped, rfl⟩)
  split
  · next small => exact .inr (.inr (.inl ⟨small, rfl⟩))
  · next large => exact .inr (.inr (.inr ⟨Nat.not_lt.mp large, rfl⟩))

theorem ascii_escapedChar (c : Char) : IsAscii (escapedChar c) := by
  rcases escapedChar_cases c with ⟨mark, _, ascii, same⟩ | ⟨_, ascii, _, _, same⟩ | ⟨_, same⟩ |
    ⟨_, same⟩
  all_goals rw [same]
  · exact ascii_cons (by decide) (List.forall_mem_singleton.mpr ascii)
  · exact List.forall_mem_singleton.mpr (by omega)
  · exact ascii_unicodeEscape _
  · exact ascii_append (ascii_unicodeEscape _) (ascii_unicodeEscape _)

theorem readsChar_pair {c : Char} {high low : Nat} (isHigh : 0xd800 ≤ high ∧ high < 0xdc00)
    (isLow : 0xdc00 ≤ low ∧ low < 0xe000) (code : c.toNat = pairCode high low) (rest : List Char) :
    ReadsChar c (unicodeEscape high ++ unicodeEscape low ++ rest) rest := by
  obtain ⟨x₁, x₂, x₃, x₄, digits, first⟩ := hexText_four (n := high) (by omega)
  obtain ⟨y₁, y₂, y₃, y₄, digits', second⟩ := hexText_four (n := low) (by omega)
  rw [unicodeEscape, unicodeEscape, digits, digits']
  exact .pair first isHigh second isLow code

theorem readsChar_escaped (c : Char) (rest : List Char) :
    ReadsChar c (escapedChar c ++ rest) rest := by
  rcases escapedChar_cases c with ⟨mark, listed, _, same⟩ |
    ⟨printed, _, unquoted, unescaped, same⟩ | ⟨small, same⟩ | ⟨large, same⟩
  all_goals rw [same]
  · exact .short listed
  · exact .plain printed unquoted unescaped
  · obtain ⟨x₁, x₂, x₃, x₄, digits, value⟩ := hexText_four small
    rw [unicodeEscape, digits]
    exact .unit value
  · have := not_surrogate c
    have code : c.toNat = pairCode (0xd800 + (c.toNat - 0x10000) / 0x400)
        (0xdc00 + (c.toNat - 0x10000) % 0x400) := by
      unfold pairCode
      omega
    exact readsChar_pair (by omega) (by omega) code rest

theorem readsString_escaped (cs rest : List Char) :
    ReadsString cs (cs.flatMap escapedChar ++ '"' :: rest) rest := by
  induction cs with
  | nil => exact .close
  | cons c cs ih =>
    rw [List.flatMap_cons, List.append_assoc]
    exact .char (readsChar_escaped c _) ih

theorem stringText_append (s : String) (rest : List Char) :
    stringText s ++ rest = '"' :: (s.toList.flatMap escapedChar ++ '"' :: rest) := by
  simp [stringText]

theorem ascii_stringText (s : String) : IsAscii (stringText s) := by
  have inside : IsAscii (s.toList.flatMap escapedChar) := by
    intro c member
    obtain ⟨d, _, own⟩ := List.mem_flatMap.mp member
    exact ascii_escapedChar d c own
  exact ascii_cons (by decide) (ascii_append inside (by decide))

/-! ## Layout -/

theorem skips_blanks (count : Nat) (rest : List Char) :
    Skips (List.replicate count ' ' ++ rest) rest := by
  induction count with
  | zero => exact .nothing
  | succ count ih => exact .gap (by decide) ih

theorem skips_opening (layout : Layout) (level : Nat) (rest : List Char) :
    Skips (layout.opening level ++ rest) rest := by
  cases layout with
  | line => exact .nothing
  | block blanks => exact .gap (by decide) (skips_blanks _ rest)

theorem between_append (layout : Layout) (level : Nat) (rest : List Char) :
    ∃ text, layout.between level ++ rest = ',' :: text ∧ Skips text rest := by
  cases layout with
  | line => exact ⟨_, rfl, .gap (by decide) .nothing⟩
  | block blanks => exact ⟨_, rfl, .gap (by decide) (skips_blanks _ rest)⟩

theorem ascii_blanks (count : Nat) : IsAscii (List.replicate count ' ') := by
  intro c member
  rw [List.eq_of_mem_replicate member]
  decide

theorem ascii_opening (layout : Layout) (level : Nat) : IsAscii (layout.opening level) := by
  cases layout with
  | line => exact List.forall_mem_nil _
  | block blanks => exact ascii_cons (by decide) (ascii_blanks _)

theorem ascii_between (layout : Layout) (level : Nat) : IsAscii (layout.between level) := by
  cases layout with
  | line => exact (by decide : IsAscii [',', ' '])
  | block blanks => exact ascii_cons (by decide) (ascii_cons (by decide) (ascii_blanks _))

/-! ## Values -/

/-- A colon and a blank, and then the value of a field. -/
theorem reads_field {key : String} {value : Json} {text between rest : List Char}
    (space : Skips text (stringText key ++ ':' :: ' ' :: between))
    (own : Reads (.value value.toValue) between rest) :
    Reads (.entry (.field key value.toValue)) text rest := by
  rw [stringText_append] at space
  exact .field space (readsString_escaped _ _) .nothing (.gap (by decide) .nothing) own

mutual

theorem reads_chars (layout : Layout) : ∀ (v : Json) (level : Nat) (rest : List Char),
    v.unwritable? = none → Reads (.value v.toValue) (v.charsThen layout level rest) rest
  | .text s, level, rest, _ => by
    rw [charsThen, stringText_append]
    exact .text (readsString_escaped _ _)
  | .number x, level, rest, writable => by
    have finite : x.isFinite = true := by
      by_contra infinite
      simp [unwritable?, infinite] at writable
    obtain ⟨f, text, value⟩ := Figure.exists_display finite
    exact .number value (by rw [charsThen, text])
  | .array [], level, rest, _ => .array .none .nothing
  | .array (item :: items), level, rest, writable => by
    simp only [unwritable?, unwritableItem?, Option.or_eq_none_iff] at writable
    have first := reads_chars layout item (level + 1)
      (itemsThen layout (level + 1) items (layout.opening level ++ ']' :: rest)) writable.1
    have others := reads_items layout items (level + 1) (layout.opening level ++ ']' :: rest)
      writable.2
    exact .array (.first (.item (skips_opening layout (level + 1) _) first) others)
      (skips_opening layout level _)
  | .object [], level, rest, _ => .object .none .nothing
  | .object ((key, value) :: fields), level, rest, writable => by
    simp only [unwritable?, unwritableField?, Option.or_eq_none_iff] at writable
    have first := reads_chars layout value (level + 1)
      (fieldsThen layout (level + 1) fields (layout.opening level ++ '\x7d' :: rest)) writable.1
    have others := reads_fields layout fields (level + 1) (layout.opening level ++ '\x7d' :: rest)
      writable.2
    have space := skips_opening layout (level + 1) (stringText key ++ ':' :: ' ' ::
      value.charsThen layout (level + 1)
        (fieldsThen layout (level + 1) fields (layout.opening level ++ '\x7d' :: rest)))
    rw [← List.append_assoc] at space
    exact .object (.first (reads_field space first) others) (skips_opening layout level _)

theorem reads_items (layout : Layout) : ∀ (items : List Json) (level : Nat) (rest : List Char),
    unwritableItem? items = none →
      Reads (.more ((toValues items).map .item)) (itemsThen layout level items rest) rest
  | [], _, _, _ => .last
  | item :: items, level, rest, writable => by
    simp only [unwritableItem?, Option.or_eq_none_iff] at writable
    have first := reads_chars layout item level (itemsThen layout level items rest) writable.1
    have others := reads_items layout items level rest writable.2
    obtain ⟨text, same, space⟩ := between_append layout level
      (item.charsThen layout level (itemsThen layout level items rest))
    rw [itemsThen, same]
    exact .next .nothing (.item space first) others

theorem reads_fields (layout : Layout) :
    ∀ (fields : List (String × Json)) (level : Nat) (rest : List Char),
      unwritableField? fields = none →
        Reads (.more ((toFields fields).map fun field => .field field.1 field.2))
          (fieldsThen layout level fields rest) rest
  | [], _, _, _ => .last
  | (key, value) :: fields, level, rest, writable => by
    simp only [unwritableField?, Option.or_eq_none_iff] at writable
    have first := reads_chars layout value level (fieldsThen layout level fields rest) writable.1
    have others := reads_fields layout fields level rest writable.2
    obtain ⟨text, same, space⟩ := between_append layout level (stringText key ++ ':' :: ' ' ::
      value.charsThen layout level (fieldsThen layout level fields rest))
    rw [fieldsThen, List.append_assoc, same, toFields, List.map_cons]
    exact .next .nothing (reads_field space first) others

end

theorem ascii_number (x : Binary64) : IsAscii x.displayChars := by
  cases x with
  | nan => decide
  | infinite negative => cases negative <;> decide
  | finite negative code =>
    obtain ⟨f, text, _⟩ := Figure.exists_display (x := .finite negative code) rfl
    intro c member
    have := (isFigureChar_bounds (f.chars_inside c (text ▸ member))).2
    omega

theorem ascii_field (key : String) {rest : List Char} (back : IsAscii rest) :
    IsAscii (stringText key ++ ':' :: ' ' :: rest) :=
  ascii_append (ascii_stringText key) (ascii_cons (by decide) (ascii_cons (by decide) back))

mutual

theorem ascii_chars (layout : Layout) : ∀ (v : Json) (level : Nat) {rest : List Char},
    IsAscii rest → IsAscii (v.charsThen layout level rest)
  | .text s, _, _, back => ascii_append (ascii_stringText s) back
  | .number x, _, _, back => ascii_append (ascii_number x) back
  | .array [], _, _, back => ascii_cons (by decide) (ascii_cons (by decide) back)
  | .array (item :: items), level, _, back => by
    have closing := ascii_append (ascii_opening layout level)
      (ascii_cons (c := ']') (by decide) back)
    have inside := ascii_chars layout item (level + 1)
      (ascii_items layout items (level + 1) closing)
    exact ascii_cons (by decide) (ascii_append (ascii_opening layout (level + 1)) inside)
  | .object [], _, _, back => ascii_cons (by decide) (ascii_cons (by decide) back)
  | .object ((key, value) :: fields), level, _, back => by
    have closing := ascii_append (ascii_opening layout level)
      (ascii_cons (c := '\x7d') (by decide) back)
    have inside := ascii_field key (ascii_chars layout value (level + 1)
      (ascii_fields layout fields (level + 1) closing))
    rw [charsThen, List.append_assoc]
    exact ascii_cons (by decide) (ascii_append (ascii_opening layout (level + 1)) inside)

theorem ascii_items (layout : Layout) : ∀ (items : List Json) (level : Nat) {rest : List Char},
    IsAscii rest → IsAscii (itemsThen layout level items rest)
  | [], _, _, back => back
  | item :: items, level, _, back =>
    ascii_append (ascii_between layout level)
      (ascii_chars layout item level (ascii_items layout items level back))

theorem ascii_fields (layout : Layout) :
    ∀ (fields : List (String × Json)) (level : Nat) {rest : List Char},
      IsAscii rest → IsAscii (fieldsThen layout level fields rest)
  | [], _, _, back => back
  | (key, value) :: fields, level, _, back => by
    have inside := ascii_field key (ascii_chars layout value level
      (ascii_fields layout fields level back))
    rw [fieldsThen, List.append_assoc]
    exact ascii_append (ascii_between layout level) inside

end

/-- A value that can be written is written, in every layout, in a text that stands for it. -/
theorem denotes_write {v : Json} (writable : v.unwritable? = none) (indent : Option Int) :
    ∃ text, Json.write indent v = .ok text ∧ IsAscii text.toList ∧
      Denotes text.toList v.toValue := by
  refine ⟨String.ofList (v.chars (.ofIndent indent)), by rw [Json.write, writable], ?_⟩
  rw [String.toList_ofList, chars]
  exact ⟨ascii_chars _ v 0 (List.forall_mem_nil _),
    [], .item .nothing (reads_chars _ v 0 [] writable), .nothing⟩

end Json

end Formulary
