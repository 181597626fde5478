import Formulary.Number.Reading
import Formulary.Source.Token
import Formulary.Text.Word

/-!
Lexemes. A text that begins with neither white space nor a comment begins with exactly one of
these, tried in this order: a word, a number, a punctuation character, an operator of a single
character. Words and numbers are as long as possible. A number is digits with at most one point,
which digits need not follow.
-/
namespace Formulary

/-- Reserved words; every other word is a name. -/
def wordKind (word : String) : TokenKind :=
  if word = "def" then .definition else if word = "extern" then .declaration else .name

def punctuationKind? : Char → Option TokenKind
  | ';' => some .separator
  | '(' => some .opening
  | ')' => some .closing
  | ',' => some .comma
  | _ => none

/-- The longest run of word characters at the front of a text. -/
def wordRun (text : List Char) : List Char := text.takeWhile isWordChar

/-- Digits, then a point if one follows, then more digits. -/
def numberRun (text : List Char) : List Char :=
  match text.dropWhile isDigit with
  | '.' :: rest => text.takeWhile isDigit ++ '.' :: rest.takeWhile isDigit
  | _ => text.takeWhile isDigit

structure Lexeme where
  kind : TokenKind
  text : List Char
  deriving DecidableEq, Repr

namespace Lexeme

def value (l : Lexeme) : TokenValue :=
  if l.kind = .number then .number (.ofNumeral l.text) else .text (String.ofList l.text)

def token (l : Lexeme) (place : Place) : Token := ⟨l.kind, l.value, place⟩

/-- The lexeme at the front of a text whose first character is given. -/
def first (c : Char) (rest : List Char) : Lexeme :=
  if isWordStart c then
    let word := wordRun (c :: rest)
    ⟨wordKind (String.ofList word), word⟩
  else if isDigit c then ⟨.number, numberRun (c :: rest)⟩
  else match punctuationKind? c with
    | some kind => ⟨kind, [c]⟩
    | none => ⟨.operator, [c]⟩

theorem first_text_ne_nil (c : Char) (rest : List Char) : (first c rest).text ≠ [] := by
  simp only [first]
  split
  · next h => simp [wordRun, isWordChar_of_isWordStart h]
  · split
    · next h =>
      simp only [numberRun]
      split <;> simp [h]
    · split <;> simp

theorem first_kind_ne_ending (c : Char) (rest : List Char) : (first c rest).kind ≠ .ending := by
  simp only [first]
  split
  · simp only [wordKind]
    split
    · simp
    · split <;> simp
  · split
    · simp
    · split
      · next h =>
        simp only [punctuationKind?] at h
        split at h <;> simp at h <;> subst h <;> simp
      · simp

end Lexeme

end Formulary
