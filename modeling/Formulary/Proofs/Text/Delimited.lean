import Formulary.Node.Display
import Formulary.Proofs.Json.Written

/-!
Texts that end by themselves. Such a text can be told from every other of its sort, and so can what
follows it, wherever it stands. Quoted text is of this sort, and so are lists of such texts with a
separator between them, up to a mark that none of them begins with.
-/
namespace Formulary

/-! ## Lists of texts -/

section

variable {α : Type} {text : α → List Char}

/-- In front of anything else the text of the value ends in one way only. -/
def Delimited (text : α → List Char) (a : α) : Prop :=
  ∀ b rest rest', text a ++ rest = text b ++ rest' → a = b ∧ rest = rest'

theorem Delimited.cancel {a b : α} (delimited : Delimited text a) {front rest rest' : List Char}
    (same : front ++ (text a ++ rest) = front ++ (text b ++ rest')) : a = b ∧ rest = rest' :=
  delimited b rest rest' (List.append_cancel_left same)

theorem delimited_behind (front : List Char) {a : α} (delimited : Delimited text a) :
    Delimited (fun b => front ++ text b) a := by
  intro b rest rest' same
  rw [List.append_assoc, List.append_assoc] at same
  exact delimited.cancel same

/-- Each text begins with a character that does not stand where the texts end. -/
def Opens (text : α → List Char) (stop : Option Char) : Prop :=
  ∀ a, ∃ c cs, text a = c :: cs ∧ stop ≠ some c

theorem Opens.append_ne {stop : Option Char} (opens : Opens text stop) (a : α)
    {rest : List Char} (ends : rest.head? = stop) (behind : List Char) : text a ++ behind ≠ rest := by
  obtain ⟨c, cs, begins, apart⟩ := opens a
  rintro rfl
  rw [begins] at ends
  exact apart ends.symm

theorem flatMap_unique {stop : Option Char} (opens : Opens text stop) {as bs : List α}
    (delimited : ∀ a ∈ as, Delimited text a) {rest rest' : List Char} (ends : rest.head? = stop)
    (ends' : rest'.head? = stop) (same : as.flatMap text ++ rest = bs.flatMap text ++ rest') :
    as = bs ∧ rest = rest' := by
  induction as generalizing bs with
  | nil =>
    cases bs with
    | nil => exact ⟨rfl, same⟩
    | cons b bs =>
      -- Where one list has ended no text of the other can begin.
      rw [List.flatMap_cons, List.append_assoc] at same
      exact absurd same.symm (opens.append_ne b ends _)
  | cons a as ih =>
    rw [List.flatMap_cons, List.append_assoc] at same
    cases bs with
    | nil => exact absurd same (opens.append_ne a ends' _)
    | cons b bs =>
      obtain ⟨own, others⟩ := List.forall_mem_cons.mp delimited
      rw [List.flatMap_cons, List.append_assoc] at same
      obtain ⟨rfl, behind⟩ := own _ _ _ same
      obtain ⟨rfl, remainder⟩ := ih others behind
      exact ⟨rfl, remainder⟩

theorem intercalate_cons (separator first : List Char) (others : List (List Char)) :
    separator.intercalate (first :: others) = first ++ others.flatMap (separator ++ ·) := by
  induction others generalizing first with
  | nil => simp
  | cons next others ih =>
    rw [List.intercalate_cons_cons, ih, List.flatMap_cons, List.append_assoc, List.append_assoc]

theorem intercalate_unique {stop : Option Char} (opens : Opens text stop) {c : Char}
    {separator : List Char} (apart : stop ≠ some c) {as bs : List α}
    (delimited : ∀ a ∈ as, Delimited text a) {rest rest' : List Char} (ends : rest.head? = stop)
    (ends' : rest'.head? = stop)
    (same : (c :: separator).intercalate (as.map text) ++ rest =
      (c :: separator).intercalate (bs.map text) ++ rest') :
    as = bs ∧ rest = rest' := by
  cases as with
  | nil =>
    cases bs with
    | nil => exact ⟨rfl, same⟩
    | cons b bs =>
      rw [List.map_cons, intercalate_cons, List.append_assoc] at same
      exact absurd same.symm (opens.append_ne b ends _)
  | cons a as =>
    rw [List.map_cons, intercalate_cons, List.append_assoc] at same
    cases bs with
    | nil => exact absurd same (opens.append_ne a ends' _)
    | cons b bs =>
      obtain ⟨own, others⟩ := List.forall_mem_cons.mp delimited
      rw [List.map_cons, intercalate_cons, List.append_assoc] at same
      obtain ⟨rfl, behind⟩ := own _ _ _ same
      rw [List.flatMap_map, List.flatMap_map] at behind
      -- Behind the first of them each text has its separator in front.
      have begins : Opens (fun a => c :: separator ++ text a) stop := fun a => ⟨c, _, rfl, apart⟩
      obtain ⟨rfl, remainder⟩ := flatMap_unique begins
        (fun a member => delimited_behind _ (others a member)) ends ends' behind
      exact ⟨rfl, remainder⟩

end

/-- Up to a mark that does not occur in it a text is told from others of the kind. -/
theorem front_unique {mark : Char} {cs ds rest rest' : List Char} (inside : mark ∉ cs)
    (inside' : mark ∉ ds) (same : cs ++ mark :: rest = ds ++ mark :: rest') :
    cs = ds ∧ rest = rest' := by
  induction cs generalizing ds with
  | nil =>
    cases ds with
    | nil => exact ⟨rfl, (List.cons.inj same).2⟩
    | cons d ds => exact absurd (List.cons.inj same).1 (List.ne_of_not_mem_cons inside')
  | cons c cs ih =>
    cases ds with
    | nil => exact absurd (List.cons.inj same).1.symm (List.ne_of_not_mem_cons inside)
    | cons d ds =>
      obtain ⟨rfl, others⟩ := List.cons.inj same
      obtain ⟨rfl, behind⟩ := ih (List.not_mem_of_not_mem_cons inside)
        (List.not_mem_of_not_mem_cons inside') others
      exact ⟨rfl, behind⟩

/-! ## Quoted text -/

/-- The character that so many hexadecimal digits stand for, and the text behind them. -/
def hexChar? (width : Nat) (cs : List Char) : Option (Char × List Char) :=
  (Json.hexFrom? 0 (cs.take width)).map fun n => (.ofNat n, cs.drop width)

/-- The character at the front of quoted text, as it is or escaped, and the text behind it. -/
def unescape? : List Char → Option (Char × List Char)
  | '\\' :: 'n' :: rest => some ('\n', rest)
  | '\\' :: 'r' :: rest => some ('\r', rest)
  | '\\' :: 't' :: rest => some ('\t', rest)
  | '\\' :: 'x' :: rest => hexChar? 2 rest
  | '\\' :: 'u' :: rest => hexChar? 4 rest
  | '\\' :: 'U' :: rest => hexChar? 8 rest
  | '\\' :: c :: rest => some (c, rest)
  | c :: rest => some (c, rest)
  | [] => none

theorem hexChar_hexText {width : Nat} {c : Char} (small : c.toNat < 16 ^ width) (rest : List Char) :
    hexChar? width (hexText width c.toNat ++ rest) = some (c, rest) := by
  have length := length_hexText width c.toNat
  have value := Json.hexFrom_hexText 0 width c.toNat
  rw [Nat.zero_mul, Nat.zero_add, Nat.mod_eq_of_lt small] at value
  rw [hexChar?, List.take_left' length, List.drop_left' length, value, Option.map_some,
    Char.ofNat_toNat]

theorem unescape_escaped {mark : Char} (quote : mark = '\'' ∨ mark = '"') (c : Char)
    (rest : List Char) : unescape? (escaped mark c ++ rest) = some (c, rest) := by
  unfold escaped
  split
  · next enclosing =>
    rcases enclosing with rfl | rfl
    · rfl
    · rcases quote with rfl | rfl <;> rfl
  · next plain =>
    split
    · next newline => rw [newline]; rfl
    split
    · next carriage => rw [carriage]; rfl
    split
    · next tab => rw [tab]; rfl
    split
    · have apart : c ≠ '\\' := fun same => plain (.inl same)
      simp [unescape?, apart]
    split
    · next small => exact hexChar_hexText (by simpa using small) rest
    split
    · next small => exact hexChar_hexText (by simpa using small) rest
    · have bound : c.toNat < 0x110000 := by
        rcases not_surrogate c with _ | _ <;> omega
      exact hexChar_hexText (by omega) rest

theorem delimited_escaped {mark : Char} (quote : mark = '\'' ∨ mark = '"') (c : Char) :
    Delimited (escaped mark) c := by
  intro d rest rest' same
  have read := congrArg unescape? same
  rw [unescape_escaped quote, unescape_escaped quote] at read
  exact Prod.mk.inj (Option.some.inj read)

theorem escaped_cases (mark c : Char) :
    (∃ cs, escaped mark c = '\\' :: cs) ∨ escaped mark c = [c] ∧ c ≠ mark := by
  unfold escaped
  split_ifs with enclosing <;> first
    | exact .inl ⟨_, rfl⟩
    | exact .inr ⟨rfl, (not_or.mp enclosing).2⟩

theorem opens_escaped {mark : Char} (quote : mark = '\'' ∨ mark = '"') :
    Opens (escaped mark) (some mark) := by
  intro c
  rcases escaped_cases mark c with ⟨cs, escape⟩ | ⟨plain, apart⟩
  · refine ⟨_, _, escape, ?_⟩
    rcases quote with rfl | rfl <;> decide
  · exact ⟨_, _, plain, fun same => apart (Option.some.inj same).symm⟩

theorem quoteMark_quote (cs : List Char) : quoteMark cs = '\'' ∨ quoteMark cs = '"' := by
  unfold quoteMark
  split
  · exact .inr rfl
  · exact .inl rfl

theorem delimited_quotedChars (cs : List Char) : Delimited quotedChars cs := by
  intro ds rest rest' same
  simp only [quotedChars, List.cons_append, List.append_assoc, List.cons.injEq] at same
  obtain ⟨marks, same⟩ := same
  rw [← marks] at same
  have quote := quoteMark_quote cs
  obtain ⟨rfl, behind⟩ := flatMap_unique (opens_escaped quote)
    (fun c _ => delimited_escaped quote c) rfl rfl same
  exact ⟨rfl, (List.cons.inj behind).2⟩

end Formulary
