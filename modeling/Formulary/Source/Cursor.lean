import Formulary.Source.Comment
import Formulary.Source.Lexeme

/-!
A cursor walks over a source text and keeps the line and column of its position. A position
before the start of the text counts from its end when a character is taken, but nothing can be
seen from there.
-/
namespace Formulary

structure Cursor where
  source : List Char
  position : Int
  place : Place
  rest : List Char
  rest_eq : rest = source.drop position.toNat

inductive CursorFault where
  /-- No character is left to take. -/
  | pastEnd (position line : Int)
  /-- The position lies too far before the start. -/
  | outOfRange
  /-- There is no character to classify. -/
  | nothingToClassify
  deriving DecidableEq, Repr

def CursorFault.message : CursorFault → String
  | .pastEnd position line =>
    "Attempted to read past end of source at position=<" ++ integerText position ++
      ">, line=<" ++ integerText line ++ ">"
  | .outOfRange => "string index out of range"
  | .nothingToClassify => "category() argument must be a unicode character, not str"

namespace Cursor

def placed (source : List Char) (position : Int) (place : Place) : Cursor :=
  ⟨source, position, place, source.drop position.toNat, rfl⟩

def start (source : List Char) : Cursor := .placed source 0 .start

def atEnd (s : Cursor) : Bool := decide ((s.source.length : Int) ≤ s.position)

/-- The character that lies `offset` places ahead, if any. -/
def peekAt (s : Cursor) (offset : Int) : Option Char :=
  if s.position + offset < 0 then none else s.source[(s.position + offset).toNat]?

def peek (s : Cursor) : Option Char := s.peekAt 0

/-- Moves over the characters given, which are the next ones of the text. -/
def moveOver (s : Cursor) (text : List Char) : Cursor :=
  { s with
    position := s.position + text.length
    place := s.place.pastAll text
    rest := if 0 ≤ s.position then s.rest.drop text.length
      else s.source.drop (s.position + text.length).toNat
    rest_eq := by
      split
      · rw [s.rest_eq, List.drop_drop]
        congr 1
        omega
      · rfl }

/-- Takes the next character. -/
def next (s : Cursor) : Except CursorFault (Char × Cursor) :=
  if s.atEnd then .error (.pastEnd s.position s.place.line)
  else if s.position < -(s.source.length : Int) then .error .outOfRange
  else
    let index := if s.position < 0 then s.position + s.source.length else s.position
    match s.source[index.toNat]? with
    | some c => .ok (c, s.moveOver [c])
    | none => .error .outOfRange

/-- What can be seen ahead: nothing from a position before the start. -/
def ahead (s : Cursor) : List Char := if s.position < 0 then [] else s.rest

def skipBlanks (s : Cursor) : Cursor := s.moveOver (s.ahead.takeWhile isBlank)

def readWord (s : Cursor) : Except CursorFault (List Char × Cursor) :=
  if s.position < 0 then .error .nothingToClassify
  else .ok (wordRun s.ahead, s.moveOver (wordRun s.ahead))

def readNumber (s : Cursor) : List Char × Cursor :=
  (numberRun s.ahead, s.moveOver (numberRun s.ahead))

/-- Reads the next token: white space is passed over, and the token that stands for the end of
the input comes once nothing else is left. -/
def scan (s : Cursor) : Token × Cursor :=
  let s := s.skipBlanks
  match s.ahead with
  | [] => (.endOfInput s.place, s)
  | c :: rest =>
    let lexeme := Lexeme.first c rest
    (lexeme.token s.place, s.moveOver lexeme.text)

def nextToken (s : Cursor) : Except CursorFault (Token × Cursor) :=
  if s.position < 0 then .error .nothingToClassify else .ok s.scan

theorem ahead_moveOver (s : Cursor) (text : List Char) (h : 0 ≤ s.position) :
    (s.moveOver text).ahead = s.ahead.drop text.length := by
  simp only [ahead, moveOver, if_pos h]
  rw [if_neg (by omega), if_neg (by omega)]

theorem skipBlanks_of_neg (s : Cursor) (h : s.position < 0) :
    s.skipBlanks.position = s.position := by
  simp [skipBlanks, moveOver, ahead, h]

theorem scan_shrinks (s : Cursor) (h : s.scan.1.kind ≠ .ending) :
    s.scan.2.ahead.length < s.ahead.length := by
  by_cases hp : s.position < 0
  · have : s.skipBlanks.ahead = [] := by simp [ahead, skipBlanks_of_neg s hp, hp]
    simp [scan, this, Token.endOfInput] at h
  · have hskip : s.skipBlanks.ahead.length ≤ s.ahead.length := by
      rw [skipBlanks, ahead_moveOver _ _ (by omega)]
      simp
    simp only [scan] at h ⊢
    split at h
    · simp [Token.endOfInput] at h
    · next c rest hc =>
      have hpos : 0 ≤ s.skipBlanks.position := by
        simp only [skipBlanks, moveOver]
        omega
      have htext := List.length_pos_iff.mpr (Lexeme.first_text_ne_nil c rest)
      rw [ahead_moveOver _ _ hpos, hc]
      rw [hc] at hskip
      simp only [List.length_drop, List.length_cons] at hskip ⊢
      omega

/-- All tokens from here on, without the one for the end of the input. -/
def tokens (s : Cursor) : List Token :=
  if _ : s.scan.1.kind = .ending then [] else s.scan.1 :: s.scan.2.tokens
termination_by s.ahead.length
decreasing_by exact scan_shrinks s ‹_›

end Cursor

/-- The tokens of a source text, comments left out. -/
def tokenize (source : String) : List Token :=
  (Cursor.start (stripComments source).toList).tokens

end Formulary
