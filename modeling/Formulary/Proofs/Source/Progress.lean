import Formulary.Proofs.Source.Calls

/-!
Progress. A call for a token never fails. It moves the cursor on, unless nothing but white space is
left; then it gives the end of the input, and so does every call after it. So as many calls as a
text has tokens, and one more, come to its end.
-/
namespace Formulary

theorem IsLexeme.read {cs following : List Char} {x : Binary64}
    (lexeme : IsLexeme ⟨.number, cs⟩ (.number x) following) :
    numberRun (cs ++ following) = cs ∧ Binary64.read? (String.ofList cs) = some x := by
  generalize same : Lexeme.mk .number cs = l at lexeme
  cases lexeme with
  | number number read ends =>
    obtain ⟨_, rfl⟩ := Lexeme.mk.inj same
    exact ⟨numberRun_of_number number ends, read⟩

theorem read_numberRun {c : Char} (rest : List Char) (digit : isDigit c = true) :
    Binary64.read? (String.ofList (numberRun (c :: rest))) =
      some (.ofNumeral (numberRun (c :: rest))) := by
  obtain ⟨cs, following, same, lexeme⟩ := exists_number rest digit
  obtain ⟨run, read⟩ := lexeme.read
  rw [same, run]
  exact read

/-- A number is a lexeme only where a digit begins it. -/
theorem Lexeme.first_number {c : Char} {rest : List Char}
    (kind : (Lexeme.first c rest).kind = .number) :
    isDigit c = true ∧ (Lexeme.first c rest).text = numberRun (c :: rest) := by
  unfold first at kind ⊢
  split at kind
  · exact absurd kind (wordKind_ne_number _)
  · next other =>
    rw [if_neg other]
    split at kind
    · next digit => exact ⟨digit, by rw [if_pos digit]⟩
    · split at kind
      · next mark =>
        rcases punctuation_iff.mp mark with ⟨_, rfl⟩ | ⟨_, rfl⟩ | ⟨_, rfl⟩ | ⟨_, rfl⟩ <;> cases kind
      · cases kind

theorem length_cutComments (inside : Bool) (text : List Char) :
    (cutComments inside text).length ≤ text.length := by
  induction text generalizing inside with
  | nil => exact Nat.le_refl 0
  | cons c text ih =>
    have closed := ih false
    have opened := ih true
    simp only [cutComments]
    split
    · simp only [List.length_cons]
      omega
    · split
      · simp only [List.length_cons]
        omega
      · simp only [List.length_cons]
        omega

namespace Cursor

variable {s : Cursor}

theorem nextToken_eq (inside : 0 ≤ s.position) : s.nextToken = .ok s.scan := by
  rw [nextToken, if_neg (Int.not_lt.mpr inside)]

theorem blank_iff (inside : 0 ≤ s.position) :
    s.skipBlanks.ahead = [] ↔ ∀ c ∈ s.ahead, isBlank c = true := by
  rw [ahead_skipBlanks inside, List.dropWhile_eq_nil_iff]

theorem skipBlanks_inside (inside : 0 ≤ s.position) : 0 ≤ s.skipBlanks.position :=
  position_moveOver inside _

theorem position_moveOver_lt {text : List Char} (nonempty : text ≠ []) :
    s.position < (s.moveOver text).position := by
  have positive := List.length_pos_iff.mpr nonempty
  simp only [moveOver]
  omega

/-- Where nothing but white space is left, a call comes to the end and stays there. -/
theorem scan_of_blank (ahead : s.skipBlanks.ahead = []) :
    s.scan = (.endOfInput s.skipBlanks.place, s.skipBlanks) ∧
      s.skipBlanks.scan = (.endOfInput s.skipBlanks.place, s.skipBlanks) := by
  have unmoved : s.skipBlanks.skipBlanks = s.skipBlanks := by
    rw [skipBlanks, ahead]
    exact moveOver_nil s.skipBlanks
  constructor
  · simp only [scan, ahead]
  · simp only [scan, unmoved, ahead]

theorem scan_of_visible {c : Char} {rest : List Char} (ahead : s.skipBlanks.ahead = c :: rest) :
    s.scan = ((Lexeme.first c rest).token s.skipBlanks.place,
      s.skipBlanks.moveOver (Lexeme.first c rest).text) := by
  simp only [scan, ahead]

theorem ending_iff (inside : 0 ≤ s.position) :
    s.scan.1.kind = .ending ↔ ∀ c ∈ s.ahead, isBlank c = true := by
  rw [← blank_iff inside]
  cases ahead : s.skipBlanks.ahead with
  | nil => simp [(scan_of_blank ahead).1, Token.endOfInput]
  | cons c rest =>
    have live := Lexeme.first_kind_ne_ending c rest
    simpa [scan_of_visible ahead, Lexeme.token] using live

theorem nextToken_ended (inside : 0 ≤ s.position) (ends : s.scan.1.kind = .ending) :
    s.scan.2.nextToken = .ok s.scan := by
  have ahead := (blank_iff inside).mpr ((ending_iff inside).mp ends)
  obtain ⟨scanned, again⟩ := scan_of_blank ahead
  rw [scanned, nextToken_eq (skipBlanks_inside inside), again]

theorem scan_forward (live : s.scan.1.kind ≠ .ending) :
    s.position < s.scan.2.position ∧ s.scan.1.place = s.skipBlanks.place := by
  cases ahead : s.skipBlanks.ahead with
  | nil =>
    rw [(scan_of_blank ahead).1] at live
    exact absurd rfl live
  | cons c rest =>
    have blanks : s.position ≤ s.skipBlanks.position := by
      simp only [skipBlanks, moveOver]
      omega
    rw [scan_of_visible ahead]
    exact ⟨Int.lt_of_le_of_lt blanks (position_moveOver_lt (Lexeme.first_text_ne_nil c rest)), rfl⟩

theorem read_readNumber {c : Char} {rest : List Char} (ahead : s.ahead = c :: rest)
    (digit : isDigit c = true) : Binary64.read? (String.ofList s.readNumber.1) =
      some (.ofNumeral (numberRun (c :: rest))) := by
  have run : s.readNumber.1 = numberRun (c :: rest) := by rw [readNumber, ahead]
  rw [run]
  exact read_numberRun rest digit

theorem number_scan (kind : s.scan.1.kind = .number) :
    ∃ x, Binary64.read? (String.ofList s.skipBlanks.readNumber.1) = some x ∧
      s.scan.1.value = .number x := by
  cases ahead : s.skipBlanks.ahead with
  | nil =>
    rw [(scan_of_blank ahead).1] at kind
    cases kind
  | cons c rest =>
    rw [scan_of_visible ahead] at kind ⊢
    have number : (Lexeme.first c rest).kind = .number := kind
    obtain ⟨digit, text⟩ := Lexeme.first_number number
    refine ⟨_, read_readNumber ahead digit, ?_⟩
    simp only [Lexeme.token, Lexeme.value]
    rw [if_pos number, text]

/-! ## Calls up to the end -/

/-- The tokens up to the end of the input, if so many calls are enough to come to it. -/
def tokensWithin : Nat → Cursor → Option (List Token)
  | 0, _ => none
  | calls + 1, s => match s.nextToken with
    | .error _ => none
    | .ok (t, next) => if t.kind = .ending then some [] else (tokensWithin calls next).map (t :: ·)

theorem position_scan_inside (inside : 0 ≤ s.position) : 0 ≤ s.scan.2.position := by
  obtain ⟨text, _, moved⟩ := scan_moves inside
  rw [moved]
  exact position_moveOver inside text

theorem tokensWithin_eq (inside : 0 ≤ s.position) (calls : Nat) :
    tokensWithin calls s = if s.tokens.length < calls then some s.tokens else none := by
  induction calls generalizing s with
  | zero => rfl
  | succ calls ih =>
    simp only [tokensWithin, nextToken_eq inside]
    unfold tokens
    by_cases ends : s.scan.1.kind = .ending
    · simp [ends]
    · rw [if_neg ends, dif_neg ends, ih (position_scan_inside inside)]
      simp only [List.length_cons, Nat.add_lt_add_iff_right]
      split <;> rfl

theorem length_tokens_le (s : Cursor) : s.tokens.length ≤ s.ahead.length := by
  fun_induction tokens s with
  | case1 s ends => exact Nat.zero_le _
  | case2 s live ih =>
    have shorter := scan_shrinks s live
    simp only [List.length_cons]
    omega

end Cursor

theorem length_tokenize_le (source : String) : (tokenize source).length ≤ source.length := by
  have scanned := Cursor.length_tokens_le (.start (stripComments source).toList)
  have cut := length_cutComments false source.toList
  have ahead : (Cursor.start (stripComments source).toList).ahead =
      cutComments false source.toList := by
    simp [Cursor.start, Cursor.placed, Cursor.ahead, stripComments]
  rw [ahead] at scanned
  rw [← String.length_toList]
  exact Nat.le_trans scanned cut

/-- A call for a token gives one that begins behind the white space, and moves on, as long as
anything else is left; a number comes with the value that its text is read to. Where only white space
is left it gives the end of the input, now and ever after. Every text is at its end after no more
calls than it has characters, and one. -/
theorem nextToken_progresses :
    (∀ s : Cursor, 0 ≤ s.position →
      (∃ t next, s.nextToken = .ok (t, next) ∧
        (t.kind = .ending ↔ ∀ c ∈ s.ahead, isBlank c = true) ∧
        (t.kind = .ending → next.nextToken = .ok (t, next)) ∧
        (t.kind ≠ .ending → s.position < next.position ∧ t.place = s.skipBlanks.place) ∧
        (t.kind = .number →
          ∃ x, Binary64.read? (String.ofList s.skipBlanks.readNumber.1) = some x ∧
            t.value = .number x)) ∧
      ∀ c ∈ s.ahead.head?, isDigit c = true →
        ∃ x, Binary64.read? (String.ofList s.readNumber.1) = some x) ∧
    ∀ source : String, (tokenize source).length < source.length + 1 ∧
      ∀ calls, Cursor.tokensWithin calls (.start (stripComments source).toList) =
        if (tokenize source).length < calls then some (tokenize source) else none := by
  constructor
  · intro s inside
    constructor
    · exact ⟨s.scan.1, s.scan.2, Cursor.nextToken_eq inside, Cursor.ending_iff inside,
        Cursor.nextToken_ended inside, Cursor.scan_forward, Cursor.number_scan⟩
    · intro c member digit
      obtain ⟨rest, ahead⟩ := List.head?_eq_some_iff.mp member
      exact ⟨_, Cursor.read_readNumber ahead digit⟩
  · intro source
    refine ⟨Nat.lt_succ_of_le (length_tokenize_le source), ?_⟩
    intro calls
    exact Cursor.tokensWithin_eq (Int.le_refl 0) calls

/-- A number with its point at the end, and white space behind it. -/
theorem nextToken_progresses_point :
    let s := Cursor.start ['1', '.', ' ']
    0 ≤ s.position ∧
      (∃ t next, s.nextToken = .ok (t, next) ∧
        (t.kind = .ending ↔ ∀ c ∈ s.ahead, isBlank c = true) ∧
        (t.kind = .ending → next.nextToken = .ok (t, next)) ∧
        (t.kind ≠ .ending → s.position < next.position ∧ t.place = s.skipBlanks.place) ∧
        (t.kind = .number →
          ∃ x, Binary64.read? (String.ofList s.skipBlanks.readNumber.1) = some x ∧
            t.value = .number x)) ∧
      '1' ∈ s.ahead.head? ∧ isDigit '1' = true ∧
        ∃ x, Binary64.read? (String.ofList s.readNumber.1) = some x := by
  intro s
  have inside : 0 ≤ s.position := Int.le_refl 0
  have first : '1' ∈ s.ahead.head? := rfl
  have digit : isDigit '1' = true := by decide
  obtain ⟨token, number⟩ := nextToken_progresses.1 s inside
  exact ⟨inside, token, first, digit, number '1' first digit⟩

end Formulary
