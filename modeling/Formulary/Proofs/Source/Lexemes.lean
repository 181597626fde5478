import Formulary.Proofs.Number.Readable
import Formulary.Source.Cursor

/-!
What the lexemes are, without a word on how they are found. In front of any text stands at most
one of them, and the scanner finds it.
-/
namespace Formulary

/-- A lexeme, its value, and a text that may follow it: it carries no word and no number on. -/
inductive IsLexeme : Lexeme → TokenValue → List Char → Prop where
  | word {c : Char} {cs following : List Char} (start : isWordStart c = true)
    (inside : ∀ d ∈ cs, isWordChar d = true) (ends : ∀ d ∈ following.head?, isWordChar d = false) :
    IsLexeme ⟨wordKind (String.ofList (c :: cs)), c :: cs⟩ (.text (String.ofList (c :: cs)))
      following
  | number {cs whole following : List Char} {fraction : Option (List Char)} {x : Binary64}
    (number : IsNumber cs whole fraction) (read : Binary64.read? (String.ofList cs) = some x)
    (ends : ∀ d ∈ following.head?, isDigit d = false ∧ (fraction = none → d ≠ '.')) :
    IsLexeme ⟨.number, cs⟩ (.number x) following
  | mark {c : Char} {following : List Char} {kind : TokenKind}
    (mark : punctuationKind? c = some kind) :
    IsLexeme ⟨kind, [c]⟩ (.text (String.singleton c)) following
  | operator {c : Char} {following : List Char} (visible : isBlank c = false)
    (start : isWordStart c = false) (digit : isDigit c = false)
    (unmarked : punctuationKind? c = none) (other : c ≠ commentMark) :
    IsLexeme ⟨.operator, [c]⟩ (.text (String.singleton c)) following

theorem wordKind_ne_number (word : String) : wordKind word ≠ .number := by
  simp only [wordKind]
  split
  · simp
  · split <;> simp

theorem numberRun_of_number {cs whole following : List Char} {fraction : Option (List Char)}
    (number : IsNumber cs whole fraction)
    (ends : ∀ d ∈ following.head?, isDigit d = false ∧ (fraction = none → d ≠ '.')) :
    numberRun (cs ++ following) = cs := by
  obtain ⟨rfl, _, digits⟩ := number
  obtain ⟨early, late⟩ := List.forall_mem_append.mp digits
  have stops : ∀ d ∈ following.head?, isDigit d = false := fun d member => (ends d member).1
  cases fraction with
  | none =>
    simp only [Option.elim_none, List.append_nil, numberRun, dropWhile_of_break early stops,
      takeWhile_of_break early stops]
    split
    · next rest => exact absurd rfl ((ends '.' rfl).2 rfl)
    · rfl
  | some ds =>
    have point : ∀ d ∈ ('.' :: (ds ++ following)).head?, isDigit d = false := by
      simp only [List.head?_cons, Option.mem_some_iff, forall_eq']
      decide
    have run : (ds ++ following).takeWhile isDigit = ds := takeWhile_of_break late stops
    rw [Option.elim_some, numberRun, List.append_assoc, List.cons_append,
      dropWhile_of_break early point, takeWhile_of_break early point]
    simp only [run]

namespace IsLexeme

variable {l : Lexeme} {value : TokenValue} {following : List Char}

theorem value_eq (lexeme : IsLexeme l value following) : value = l.value := by
  cases lexeme with
  | word => rw [Lexeme.value, if_neg (wordKind_ne_number _)]
  | number number read =>
    rw [read_number number, Option.some.injEq] at read
    rw [Lexeme.value, if_pos rfl, read]
  | mark mark =>
    rcases punctuation_iff.mp mark with ⟨_, rfl⟩ | ⟨_, rfl⟩ | ⟨_, rfl⟩ | ⟨_, rfl⟩ <;> rfl
  | operator => rfl

theorem first_eq (lexeme : IsLexeme l value following) : ∃ c cs, l.text = c :: cs ∧
    isBlank c = false ∧ Lexeme.first c (cs ++ following) = l := by
  cases lexeme with
  | @word c cs _ start inside ends =>
    have begins := isWordChar_of_isWordStart start
    have run := takeWhile_of_break (List.forall_mem_cons.mpr ⟨begins, inside⟩) ends
    rw [List.cons_append] at run
    refine ⟨c, cs, rfl, isBlank_of_isWordChar begins, ?_⟩
    simp only [Lexeme.first, start, if_true, wordRun, run]
  | @number cs whole _ fraction x number _ ends =>
    obtain ⟨c, tail, rfl⟩ := List.exists_cons_of_ne_nil number.nonempty
    have digit : isDigit c = true := number.digits c (by simp)
    have run := numberRun_of_number number ends
    obtain ⟨rfl, _, _⟩ := number
    refine ⟨c, tail ++ fraction.elim [] ('.' :: ·), rfl,
      isBlank_of_isWordChar (isWordChar_of_isDigit digit), ?_⟩
    simp only [List.cons_append] at run
    simp only [Lexeme.first, isWordStart_of_isDigit digit, digit, Bool.false_eq_true, if_false,
      if_true, run, List.cons_append]
  | @mark c _ kind mark =>
    obtain ⟨visible, word, _⟩ := apart_of_punctuation mark
    obtain ⟨start, digit, _⟩ := isWordChar_eq_false.mp word
    refine ⟨c, [], rfl, visible, ?_⟩
    simp only [Lexeme.first, start, digit, mark, Bool.false_eq_true, if_false]
  | @operator c _ visible start digit unmarked =>
    refine ⟨c, [], rfl, visible, ?_⟩
    simp only [Lexeme.first, start, digit, unmarked, Bool.false_eq_true, if_false]

theorem apart (lexeme : IsLexeme l value following) :
    ∀ c ∈ l.text, isBlank c = false ∧ c ≠ commentMark := by
  have word {c : Char} (word : isWordChar c = true) : isBlank c = false ∧ c ≠ commentMark :=
    ⟨isBlank_of_isWordChar word, ne_commentMark_of_isWordChar word⟩
  cases lexeme with
  | word start inside =>
    exact List.forall_mem_cons.mpr
      ⟨word (isWordChar_of_isWordStart start), fun d member => word (inside d member)⟩
  | @number cs whole _ fraction _ number =>
    obtain ⟨rfl, _, digits⟩ := number
    obtain ⟨early, late⟩ := List.forall_mem_append.mp digits
    refine List.forall_mem_append.mpr
      ⟨fun d member => word (isWordChar_of_isDigit (early d member)), ?_⟩
    cases fraction with
    | none => simp
    | some ds =>
      exact List.forall_mem_cons.mpr
        ⟨by decide, fun d member => word (isWordChar_of_isDigit (late d member))⟩
  | mark mark =>
    obtain ⟨visible, _, _, other⟩ := apart_of_punctuation mark
    simpa using ⟨visible, other⟩
  | operator visible _ _ _ other => simpa using ⟨visible, other⟩

theorem plain (lexeme : IsLexeme l value following) : commentMark ∉ l.text :=
  fun member => (lexeme.apart _ member).2 rfl

theorem printed (lexeme : IsLexeme l value following) : '\n' ∉ l.text :=
  fun member => absurd (lexeme.apart _ member).1 (by decide)

/-- Another text may follow if it begins alike, or with a character that carries nothing on. -/
theorem follow {other : List Char} (lexeme : IsLexeme l value following)
    (head : ∀ d ∈ other.head?, d ∈ following.head? ∨ isWordChar d = false ∧ d ≠ '.') :
    IsLexeme l value other := by
  cases lexeme with
  | word start inside ends =>
    refine .word start inside fun d member => ?_
    exact (head d member).elim (ends d) And.left
  | number number read ends =>
    refine .number number read fun d member => ?_
    rcases head d member with same | ⟨word, point⟩
    · exact ends d same
    · exact ⟨(isWordChar_eq_false.mp word).2.1, fun _ => point⟩
  | mark mark => exact .mark mark
  | operator visible start digit unmarked other =>
    exact .operator visible start digit unmarked other

end IsLexeme

theorem exists_number {c : Char} (rest : List Char) (digit : isDigit c = true) :
    ∃ cs following, c :: rest = cs ++ following ∧
      IsLexeme ⟨.number, cs⟩ (.number (.ofNumeral cs)) following := by
  have run : ∀ d ∈ c :: rest.takeWhile isDigit, isDigit d = true :=
    List.forall_mem_cons.mpr ⟨digit, List.all_eq_true.mp List.all_takeWhile⟩
  have whole : c :: rest = c :: rest.takeWhile isDigit ++ rest.dropWhile isDigit := by
    rw [List.cons_append, List.takeWhile_append_dropWhile]
  have stops : ∀ d ∈ (rest.dropWhile isDigit).head?, isDigit d = false := head_dropWhile
  by_cases point : (rest.dropWhile isDigit).head? = some '.'
  · obtain ⟨later, same⟩ := List.head?_eq_some_iff.mp point
    have number : IsNumber (c :: rest.takeWhile isDigit ++ '.' :: later.takeWhile isDigit)
        (c :: rest.takeWhile isDigit) (some (later.takeWhile isDigit)) :=
      ⟨rfl, List.cons_ne_nil _ _,
        List.forall_mem_append.mpr ⟨run, List.all_eq_true.mp List.all_takeWhile⟩⟩
    refine ⟨_, later.dropWhile isDigit, ?_, .number number (read_number number) fun d member =>
      ⟨head_dropWhile d member, fun none => by cases none⟩⟩
    have tail : '.' :: later = '.' :: later.takeWhile isDigit ++ later.dropWhile isDigit := by
      rw [List.cons_append, List.takeWhile_append_dropWhile]
    rw [whole, same, List.append_assoc, ← tail]
  · have number : IsNumber (c :: rest.takeWhile isDigit) (c :: rest.takeWhile isDigit) none :=
      ⟨(List.append_nil _).symm, List.cons_ne_nil _ _, by simpa using run⟩
    refine ⟨_, rest.dropWhile isDigit, whole, .number number (read_number number) fun d member =>
      ⟨stops d member, fun _ same => point ?_⟩⟩
    rw [← same, Option.mem_def.mp member]

/-- Where neither white space nor a comment begins, a lexeme does. -/
theorem exists_lexeme {c : Char} (rest : List Char) (visible : isBlank c = false)
    (other : c ≠ commentMark) : ∃ l value following,
      c :: rest = l.text ++ following ∧ IsLexeme l value following := by
  by_cases start : isWordStart c = true
  · have word : ∀ d ∈ rest.takeWhile isWordChar, isWordChar d = true :=
      List.all_eq_true.mp List.all_takeWhile
    refine ⟨_, _, rest.dropWhile isWordChar, ?_, .word start word head_dropWhile⟩
    rw [List.cons_append, List.takeWhile_append_dropWhile]
  by_cases digit : isDigit c = true
  · obtain ⟨cs, following, same, number⟩ := exists_number rest digit
    exact ⟨_, _, following, same, number⟩
  cases mark : punctuationKind? c with
  | some kind => exact ⟨_, _, rest, rfl, .mark mark⟩
  | none =>
    rw [Bool.not_eq_true] at start digit
    exact ⟨_, _, rest, rfl, .operator visible start digit mark other⟩

end Formulary
