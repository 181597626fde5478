import Formulary.Print
import Formulary.Proofs.Number.Figure
import Formulary.Proofs.Source.Scanning

/-!
The source text of a number. It shows the same number as the display, written out with digits on
both sides of a point. The scanner takes all of it for one number wherever no digit follows. Only
finite numbers without sign have such a text.
-/
namespace Formulary

/-- The number that digits, perhaps with a point and an exponent, denote exactly. -/
def denotedNumber? (cs : List Char) : Option Rat := (FreeNumber.decimal? cs).map Decimal.number

theorem denotedNumber_of_writes {d : Decimal} {text : List Char} (writes : Figure.Writes d text) :
    denotedNumber? text = some d.number := by
  obtain ⟨f, _, same, number⟩ := writes false
  rw [denotedNumber?, ← same, f.decimal_eq, Option.map_some, number]

/-- A numeral is scanned as one number in front of anything but a digit, even of another point. -/
theorem Cursor.nextToken_of_numeral {cs whole fraction rest : List Char}
    (numeral : IsNumeral cs whole fraction) {s : Cursor} (inside : 0 ≤ s.position)
    (ahead : s.ahead = cs ++ rest) (ends : ∀ d ∈ rest.head?, isDigit d = false) :
    s.nextToken = .ok (⟨.number, .number (.ofNumeral cs), s.place⟩, s.moveOver cs) ∧
      (s.moveOver cs).ahead = rest := by
  have lexeme : IsLexeme ⟨.number, cs⟩ (.number (.ofNumeral cs)) rest := by
    refine .number numeral.isNumber (read_number numeral.isNumber) fun d member => ?_
    exact ⟨ends d member, nofun⟩
  obtain ⟨step, left⟩ := scan_of_isLexeme inside lexeme ahead
  refine ⟨?_, left⟩
  rw [nextToken, if_neg (Int.not_lt.mpr inside), step]

/-- A finite number without sign has a text of digits around one point. It denotes the same number
as the display and is scanned as one token that holds the number. No other number has a text. -/
theorem source_of_number (x : Binary64) :
    (x.isFinite = true → x.isNegative = false → ∃ whole fraction : List Char,
      x.source = .ok (String.ofList (whole ++ '.' :: fraction)) ∧
      whole ≠ [] ∧ fraction ≠ [] ∧ (∀ c ∈ whole ++ fraction, c.isDigit = true) ∧
      (∃ number : Rat, denotedNumber? (whole ++ '.' :: fraction) = some number ∧
        denotedNumber? x.displayChars = some number) ∧
      ∀ (s : Cursor) (rest : List Char), 0 ≤ s.position →
        s.ahead = whole ++ '.' :: fraction ++ rest → (∀ d ∈ rest.head?, isDigit d = false) →
          s.nextToken =
            .ok (⟨.number, .number x, s.place⟩, s.moveOver (whole ++ '.' :: fraction)) ∧
          (s.moveOver (whole ++ '.' :: fraction)).ahead = rest) ∧
    (x.isFinite = false → x.source = .error (.notFinite x)) ∧
    (x.isFinite = true → x.isNegative = true → x.source = .error (.negative x)) := by
  refine ⟨fun finite unsigned => ?_, fun infinite => ?_, fun finite negative => ?_⟩
  · cases x with
    | nan => cases finite
    | infinite => cases finite
    | finite negative code =>
      obtain rfl : negative = false := unsigned
      have zero := @Decimal.exponent_shortest code.val
      have written := denotedNumber_of_writes (Figure.writes_positional zero)
      have displayed := denotedNumber_of_writes (Figure.writes_display zero)
      have value := ofNumeral_positional code
      obtain ⟨whole, fraction, numeral, _, behind, _⟩ :=
        (Decimal.shortest code.val).positional_isNumeral
      have shape := numeral.shape
      rw [shape] at numeral written value
      refine ⟨whole, fraction, ?_, numeral.nonempty, behind, numeral.ascii, ⟨_, written, displayed⟩,
        fun s rest inside ahead ends => ?_⟩
      · rw [Binary64.source, shape]
      · have scanned := Cursor.nextToken_of_numeral numeral inside ahead ends
        rwa [value] at scanned
  · cases x with
    | nan => rfl
    | infinite => rfl
    | finite => cases infinite
  · cases x with
    | nan => cases finite
    | infinite => cases finite
    | finite sign code =>
      obtain rfl : sign = true := negative
      rfl

/-- One and a half, with a second point behind it, and its negative. -/
theorem source_of_number_half :
    let code : Fin overflowCode := ⟨4609434218613702656, by decide⟩
    let cursor := Cursor.start ['1', '.', '5', '.', 'x']
    (Binary64.finite false code).source = .ok "1.5" ∧
      (∃ number : Rat, denotedNumber? ['1', '.', '5'] = some number ∧
        denotedNumber? (Binary64.finite false code).displayChars = some number) ∧
      cursor.nextToken = .ok (⟨.number, .number (.finite false code), .start⟩,
        cursor.moveOver ['1', '.', '5']) ∧
      (Binary64.infinite true).source = .error (.notFinite (.infinite true)) ∧
      (Binary64.finite true code).source = .error (.negative (.finite true code)) := by
  intro code cursor
  have digits : (Decimal.shortest code.val).positional = ['1', '.', '5'] := by decide +kernel
  have text : (Binary64.finite false code).source = .ok "1.5" := by
    rw [Binary64.source, digits]
  obtain ⟨whole, fraction, written, _, _, _, same, scanned⟩ :=
    (source_of_number (.finite false code)).1 rfl rfl
  have spelling : whole ++ '.' :: fraction = ['1', '.', '5'] := by
    rw [text, Except.ok.injEq] at written
    exact (String.ofList_injective written).symm
  rw [spelling] at same scanned
  have ends : ∀ d ∈ ['.', 'x'].head?, isDigit d = false := by
    intro d member
    obtain rfl := Option.some.inj member
    decide
  have token := scanned cursor ['.', 'x'] (Int.le_refl 0) rfl ends
  exact ⟨text, same, token.1, (source_of_number (.infinite true)).2.1 rfl,
    (source_of_number (.finite true code)).2.2 rfl rfl⟩

end Formulary
