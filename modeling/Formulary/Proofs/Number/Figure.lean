import Formulary.Proofs.Number.Readable

/-!
Numbers in decimal notation, perhaps with a point and an exponent, as they are displayed and as
JSON has them. Such a figure stands for the double nearest to its decimal; free number text is read
as that double, and every finite double is displayed as a figure of its own.
-/
namespace Formulary

open FreeNumber

/-- A mark, perhaps a sign, and digits. -/
structure Exponent where
  mark : Char
  sign : Option Char
  digits : List Char
  isMark : mark = 'e' ∨ mark = 'E'
  isSign : ∀ c ∈ sign, c = '+' ∨ c = '-'
  nonempty : digits ≠ []
  ascii : ∀ c ∈ digits, c.isDigit = true

/-- No zero stands in front of another digit, and a point has digits on both sides. -/
structure Figure where
  negative : Bool
  whole : List Char
  fraction : Option (List Char)
  exponent : Option Exponent
  nonempty : whole ≠ []
  lead : whole = ['0'] ∨ whole.head? ≠ some '0'
  behind : ∀ ds ∈ fraction, ds ≠ []
  ascii : ∀ c ∈ whole ++ fraction.getD [], c.isDigit = true

/-- The characters of figures. -/
def isFigureChar (c : Char) : Bool :=
  c.isDigit || c == '.' || c == 'e' || c == 'E' || c == '+' || c == '-'

theorem isFigureChar_bounds {c : Char} (inside : isFigureChar c = true) :
    43 ≤ c.toNat ∧ c.toNat < 102 := by
  simp only [isFigureChar, Bool.or_eq_true, beq_iff_eq] at inside
  rcases inside with ((((digit | rfl) | rfl) | rfl) | rfl) | rfl
  · obtain ⟨lower, upper⟩ := isDigit_bounds digit
    omega
  all_goals decide

theorem isFigureChar_of_isDigit {c : Char} (digit : c.isDigit = true) : isFigureChar c = true := by
  simp [isFigureChar, digit]

theorem figureChar_apart {c : Char} (inside : isFigureChar c = true) :
    normal c = c ∧ isPadding c = false ∧ c ≠ '_' := by
  obtain ⟨lower, upper⟩ := isFigureChar_bounds inside
  refine ⟨if_pos (by omega), ?_, ?_⟩
  · have space : c ≠ ' ' := by
      rintro rfl
      exact absurd lower (by decide)
    simp only [isPadding, Bool.or_eq_false_iff, beq_eq_false_iff_ne, Bool.and_eq_false_iff,
      decide_eq_false_iff_not]
    exact ⟨space, .inr (by omega)⟩
  · rintro rfl
    exact absurd inside (by decide)

/-- Text of these characters has nothing around it and nothing to drop. -/
theorem read_inside {cs : List Char} (inside : ∀ c ∈ cs, isFigureChar c = true) :
    joinDigits false (trim (cs.map normal)) = some cs := by
  have normalized : cs.map normal = cs := by
    refine (List.map_congr_left fun c member => ?_).trans (List.map_id _)
    exact (figureChar_apart (inside c member)).1
  rw [normalized, trim_eq fun c member => (figureChar_apart (inside c member)).2.1]
  exact joinDigits_eq (fun c member => (figureChar_apart (inside c member)).2.2) false

namespace Exponent

def chars (e : Exponent) : List Char := e.mark :: (e.sign.toList ++ e.digits)

def value (e : Exponent) : Int :=
  if e.sign = some '-' then -(Nat.ofDigitChars 10 e.digits 0 : Int)
  else Nat.ofDigitChars 10 e.digits 0

variable (e : Exponent)

theorem signed_eq : signed? (e.sign.toList ++ e.digits) = some e.value := by
  have digits : e.digits.all isAsciiDigit = true := by
    rw [List.all_eq_true]
    intro c member
    rw [isAsciiDigit_eq]
    exact e.ascii c member
  have split : FreeNumber.sign (e.sign.toList ++ e.digits) =
      (decide (e.sign = some '-'), e.digits) := by
    cases signed : e.sign with
    | none =>
      obtain ⟨c, cs, same⟩ := List.exists_cons_of_ne_nil e.nonempty
      rw [Option.toList_none, List.nil_append, same]
      exact sign_plain (.inl (e.ascii c (by simp [same])))
    | some c =>
      rcases e.isSign c signed with rfl | rfl <;> rfl
  simp only [signed?, split, decide_eq_true_eq, digitsValue_of_ascii e.ascii]
  exact if_pos ⟨e.nonempty, digits⟩

theorem chars_inside : ∀ c ∈ e.chars, isFigureChar c = true := by
  refine List.forall_mem_cons.mpr ⟨?_, List.forall_mem_append.mpr ⟨?_, ?_⟩⟩
  · rcases e.isMark with same | same <;> rw [same] <;> decide
  · intro c member
    rcases e.isSign c (by simpa using member) with rfl | rfl <;> decide
  · intro c member
    exact isFigureChar_of_isDigit (e.ascii c member)

/-- The exponent of a whole number, as it is displayed. -/
def ofInt (power : Int) : Exponent where
  mark := 'e'
  sign := some (if power < 0 then '-' else '+')
  digits :=
    let ds := Decimal.digits power.natAbs
    if ds.length < 2 then '0' :: ds else ds
  isMark := .inl rfl
  isSign := by
    intro c member
    obtain rfl := Option.some.inj member
    split <;> simp
  nonempty := by
    dsimp only
    split
    · simp
    · exact Nat.toDigits_ne_nil
  ascii := by
    dsimp only
    split
    · exact List.forall_mem_cons.mpr ⟨by decide, Decimal.ascii_digits _⟩
    · exact Decimal.ascii_digits _

theorem chars_ofInt (power : Int) : (ofInt power).chars = Decimal.exponentText power := rfl

theorem value_ofInt (power : Int) : (ofInt power).value = power := by
  have digits : Nat.ofDigitChars 10 (ofInt power).digits 0 = power.natAbs := by
    simp only [ofInt]
    split
    · rw [Nat.ofDigitChars_cons]
      exact Decimal.value_digits _
    · exact Decimal.value_digits _
  rw [value, digits]
  by_cases below : power < 0
  · rw [if_pos (by simp [ofInt, below])]
    omega
  · rw [if_neg (by simp [ofInt, below])]
    omega

end Exponent

namespace Figure

def digitChars (f : Figure) : List Char := f.whole ++ f.fraction.elim [] ('.' :: ·)

def exponentChars (f : Figure) : List Char := f.exponent.elim [] Exponent.chars

def chars (f : Figure) : List Char :=
  (if f.negative then ['-'] else []) ++ (f.digitChars ++ f.exponentChars)

/-- The digits behind the point lower the exponent. -/
def decimal (f : Figure) : Decimal :=
  ⟨Nat.ofDigitChars 10 (f.whole ++ f.fraction.getD []) 0,
    f.exponent.elim 0 Exponent.value - (f.fraction.getD []).length⟩

def value (f : Figure) : Binary64 := f.decimal.toBinary64 f.negative

variable (f : Figure)

theorem digitChars_plain : ∀ c ∈ f.digitChars, IsPlain c := by
  obtain ⟨whole, fraction⟩ := List.forall_mem_append.mp f.ascii
  refine List.forall_mem_append.mpr ⟨fun c member => .inl (whole c member), ?_⟩
  cases point : f.fraction with
  | none => simp
  | some ds =>
    rw [point] at fraction
    exact List.forall_mem_cons.mpr ⟨.inr rfl, fun c member => .inl (fraction c member)⟩

theorem digitChars_begins : ∃ c cs, f.digitChars = c :: cs ∧ c.isDigit = true := by
  obtain ⟨c, cs, same⟩ := List.exists_cons_of_ne_nil f.nonempty
  exact ⟨c, _, by rw [digitChars, same, List.cons_append], f.ascii c (by simp [same])⟩

theorem chars_inside : ∀ c ∈ f.chars, isFigureChar c = true := by
  refine List.forall_mem_append.mpr ⟨?_, List.forall_mem_append.mpr ⟨?_, ?_⟩⟩
  · cases f.negative <;> simp [isFigureChar]
  · intro c member
    rcases f.digitChars_plain c member with digit | rfl
    · exact isFigureChar_of_isDigit digit
    · decide
  · unfold exponentChars
    cases f.exponent with
    | none => simp
    | some e => exact e.chars_inside

theorem chars_begins : ∃ c cs, f.chars = c :: cs ∧ (c.isDigit = true ∨ c = '-') := by
  obtain ⟨c, cs, same, digit⟩ := f.digitChars_begins
  cases sign : f.negative with
  | false => exact ⟨c, cs ++ f.exponentChars, by simp [chars, sign, same], .inl digit⟩
  | true => exact ⟨'-', c :: cs ++ f.exponentChars, by simp [chars, sign, same], .inr rfl⟩

theorem decimal_eq : decimal? (f.digitChars ++ f.exponentChars) = some f.decimal := by
  have read := mantissa_number f.nonempty f.ascii
  rw [digitsValue_of_ascii f.ascii, ← digitChars] at read
  cases power : f.exponent with
  | none =>
    have integral : f.exponentChars = [] := by rw [exponentChars, power]; rfl
    rw [integral, List.append_nil, decimal_plain f.digitChars_plain read]
    simp [decimal, power]
  | some e =>
    have marked : f.exponentChars = e.mark :: (e.sign.toList ++ e.digits) := by
      rw [exponentChars, power]
      rfl
    have unmarked : ∀ c ∈ f.digitChars, (!isExponentMark c) = true := by
      intro c member
      obtain ⟨_, _, _, _, small, large, _⟩ := (f.digitChars_plain c member).apart
      simp [isExponentMark, small, large]
    have ends : ∀ c ∈ f.exponentChars.head?, (!isExponentMark c) = false := by
      rw [marked]
      intro c member
      obtain rfl := Option.some.inj member
      rcases e.isMark with same | same <;> simp [isExponentMark, same]
    have front := takeWhile_of_break unmarked ends
    have back := dropWhile_of_break unmarked ends
    rw [marked] at front back
    simp only [decimal?, marked, front, back, read, e.signed_eq, Option.map_some]
    rw [decimal, power, Option.elim_some, Int.add_comm, Int.sub_eq_add_neg]

/-- Free number text is read as the number that a figure stands for. -/
theorem read_chars : Binary64.read? (String.ofList f.chars) = some f.value := by
  have joined := read_inside f.chars_inside
  obtain ⟨c, cs, begins, digit⟩ := f.digitChars_begins
  have word : word? f.negative (f.digitChars ++ f.exponentChars) = none := by
    rw [begins]
    exact word_none (.inl digit) _
  have signed : FreeNumber.sign f.chars = (f.negative, f.digitChars ++ f.exponentChars) := by
    cases negative : f.negative with
    | false =>
      have plain : f.chars = c :: (cs ++ f.exponentChars) := by simp [chars, negative, begins]
      rw [plain, sign_plain (.inl digit), begins]
      rfl
    | true => simp [chars, negative, FreeNumber.sign]
  rw [Binary64.read?, String.toList_ofList, joined, Option.bind_some]
  simp only [signed, word, magnitude_eq, f.decimal_eq, Option.map_some, Option.none_or]
  rfl

/-- A decimal is written as a figure of the same number. -/
def Writes (d : Decimal) (text : List Char) : Prop :=
  ∀ negative : Bool, ∃ f : Figure, f.negative = negative ∧
    f.digitChars ++ f.exponentChars = text ∧ f.decimal.number = d.number

theorem writes_positional {d : Decimal} (zero : d.coefficient = 0 → d.exponent = 0) :
    Writes d d.positional := by
  intro negative
  obtain ⟨whole, fraction, numeral, number, behind, lead⟩ := d.positional_isNumeral
  refine ⟨⟨negative, whole, some fraction, none, numeral.nonempty, lead zero, ?_, numeral.ascii⟩,
    rfl, ?_, ?_⟩
  · intro ds member
    obtain rfl := Option.some.inj member
    exact behind
  · exact (List.append_nil _).trans numeral.shape.symm
  · simpa [decimal] using number

theorem writes_scientific (d : Decimal) : Writes d d.scientific := by
  intro negative
  have ascii := Decimal.ascii_digits d.coefficient
  have value := Decimal.value_digits d.coefficient
  obtain ⟨c, cs, same⟩ := List.exists_cons_of_ne_nil
    (Nat.toDigits_ne_nil (b := 10) (n := d.coefficient))
  replace same : Decimal.digits d.coefficient = c :: cs := same
  rw [same] at ascii value
  have lead : [c] = ['0'] ∨ [c].head? ≠ some '0' := by
    by_cases zero : c = '0'
    · exact .inl (by rw [zero])
    · exact .inr (by simpa using zero)
  have point : d.point - 1 = cs.length + d.exponent := by
    rw [Decimal.point, same, List.length_cons]
    omega
  have number : (Decimal.mk (Nat.ofDigitChars 10 (c :: cs) 0)
      ((Exponent.ofInt (d.point - 1)).value - (cs.length : Int))).number = d.number := by
    rw [Exponent.value_ofInt, value, point, Int.add_comm, Int.add_sub_cancel]
  cases cs with
  | nil =>
    refine ⟨⟨negative, [c], none, some (.ofInt (d.point - 1)), by simp, lead, by simp, ascii⟩, rfl,
      ?_, number⟩
    simp only [Decimal.scientific, same]
    exact congrArg _ (Exponent.chars_ofInt _)
  | cons next cs =>
    refine ⟨⟨negative, [c], some (next :: cs), some (.ofInt (d.point - 1)), by simp, lead, by simp,
      ascii⟩, rfl, ?_, number⟩
    simp only [Decimal.scientific, same]
    exact congrArg _ (Exponent.chars_ofInt _)

theorem writes_display {d : Decimal} (zero : d.coefficient = 0 → d.exponent = 0) :
    Writes d d.display := by
  unfold Decimal.display
  split
  · exact writes_scientific d
  · exact writes_positional zero

/-- A finite number is displayed as a figure that stands for it. -/
theorem exists_display {x : Binary64} (finite : x.isFinite = true) :
    ∃ f : Figure, f.chars = x.displayChars ∧ f.value = x := by
  cases x with
  | nan => cases finite
  | infinite => cases finite
  | finite negative code =>
    obtain ⟨f, rfl, text, same⟩ := writes_display Decimal.exponent_shortest negative
    refine ⟨f, ?_, ?_⟩
    · rw [chars, text]
      rfl
    · rw [value, Decimal.toBinary64, Decimal.code_congr same, Decimal.code_shortest, Binary64.ofCode,
        dif_pos code.isLt]

end Figure

/-- Free number text is read as the number that it displays. -/
theorem read_display (x : Binary64) : Binary64.read? x.display = some x := by
  cases x with
  | nan => decide
  | infinite negative => cases negative <;> decide
  | finite negative code =>
    obtain ⟨f, text, value⟩ := @Figure.exists_display (.finite negative code) rfl
    rw [Binary64.display, ← text, f.read_chars, value]

end Formulary
