import Formulary.Proofs.Source.Scanning
import Mathlib.Data.List.DropRight

/-!
The pieces of a source text. Every text is white space, comments and lexemes, one after the other
with nothing left over. Its tokens are these lexemes, with the places that they have in the text
from which no comment has been cut.
-/
namespace Formulary

/-- What stands behind the last line feed. -/
def lastLine (text : List Char) : List Char := text.rtakeWhile (· != '\n')

/-- The place at the end of a text. -/
def Place.behind (text : List Char) : Place :=
  ⟨1 + text.count '\n', 1 + (lastLine text).length⟩

/-- `Decomposes before source tokens`: the text is made of pieces, and its lexemes are the tokens.
The text that stands before it is there to count lines and columns. -/
inductive Decomposes : List Char → List Char → List Token → Prop where
  | ends {before : List Char} : Decomposes before [] []
  | blank {before rest : List Char} {c : Char} {tokens : List Token} (blank : isBlank c = true)
    (others : Decomposes (before ++ [c]) rest tokens) : Decomposes before (c :: rest) tokens
  | comment {before body rest : List Char} {tokens : List Token} (within : '\n' ∉ body)
    (closed : ∀ c ∈ rest.head?, c = '\n')
    (others : Decomposes (before ++ commentMark :: body) rest tokens) :
    Decomposes before (commentMark :: (body ++ rest)) tokens
  | lexeme {before rest : List Char} {l : Lexeme} {value : TokenValue} {tokens : List Token}
    (lexeme : IsLexeme l value rest) (others : Decomposes (before ++ l.text) rest tokens) :
    Decomposes before (l.text ++ rest) (⟨l.kind, value, .behind before⟩ :: tokens)

namespace Place

theorem behind_snoc (text : List Char) (c : Char) :
    behind (text ++ [c]) = (behind text).past c := by
  by_cases feed : c = '\n'
  · subst feed
    simp [behind, lastLine, past]
    omega
  · simp [behind, lastLine, past, feed]
    omega

theorem behind_append (text w : List Char) : behind (text ++ w) = (behind text).pastAll w := by
  induction w generalizing text with
  | nil => rw [List.append_nil]; rfl
  | cons c w ih =>
    rw [List.append_cons, ih, behind_snoc]
    rfl

theorem behind_nil : behind [] = start := rfl

theorem line_behind {text w : List Char} (within : '\n' ∉ w) :
    (behind (text ++ w)).line = (behind text).line := by
  simp [behind, List.count_append, List.count_eq_zero.mpr within]

theorem eq_of_past {place other : Place} {c : Char} (printed : c ≠ '\n')
    (same : place.past c = other.past c) : place = other := by
  obtain ⟨line, column⟩ := place
  obtain ⟨line', column'⟩ := other
  simp only [past, printed, if_false, mk.injEq] at same ⊢
  omega

theorem past_feed {place other : Place} (same : place.line = other.line) :
    place.past '\n' = other.past '\n' := by
  simp [past, same]

end Place

theorem head_cutComments_open (text : List Char) :
    ∀ c ∈ (cutComments true text).head?, c = '\n' := by
  induction text with
  | nil => simp [cutComments]
  | cons d text ih =>
    simp only [cutComments]
    split
    · simp_all
    · simpa using ih

theorem head_cutComments (text : List Char) :
    ∀ c ∈ (cutComments false text).head?, c ∈ text.head? ∨ c = '\n' := by
  intro c member
  cases text with
  | nil => simp [cutComments] at member
  | cons d text =>
    simp only [cutComments] at member
    split at member
    · exact .inl member
    · split at member
      · exact .inr (head_cutComments_open text c member)
      · exact .inl member

theorem cutComments_comment {body rest : List Char} (within : '\n' ∉ body)
    (closed : ∀ c ∈ rest.head?, c = '\n') :
    cutComments false (commentMark :: (body ++ rest)) = cutComments false rest := by
  have left : cutComments true (body ++ rest) = cutComments true rest := by
    induction body with
    | nil => rfl
    | cons c body ih =>
      obtain ⟨other, later⟩ := not_or.mp (mt List.mem_cons.mpr within)
      simp [cutComments, ih later, Ne.symm other]
  have opened : cutComments false (commentMark :: (body ++ rest)) =
      cutComments true (body ++ rest) := by
    simp [cutComments, commentMark]
  rw [opened, left]
  cases rest with
  | nil => rfl
  | cons c rest => simp [cutComments, closed c rfl]

/-- What follows a lexeme may lose its comments. -/
theorem IsLexeme.uncommented {l : Lexeme} {value : TokenValue} {following : List Char}
    (lexeme : IsLexeme l value following) : IsLexeme l value (cutComments false following) := by
  refine lexeme.follow fun d member => ?_
  rcases head_cutComments following d member with same | rfl
  · exact .inl same
  · exact .inr (by decide)

/-- Two places in front of a lexeme are one if they agree behind its first character. -/
theorem IsLexeme.place_eq {l : Lexeme} {value : TokenValue} {following : List Char}
    (lexeme : IsLexeme l value following) {place other : Place}
    (placed : ∀ c ∈ (l.text ++ following).head?, place.past c = other.past c) : place = other := by
  obtain ⟨c, cs, same, visible, _⟩ := lexeme.first_eq
  refine Place.eq_of_past ?_ (placed c (by simp [same]))
  rintro rfl
  exact absurd visible (by decide)

theorem Cursor.tokens_of_decomposes {before source : List Char} {tokens : List Token}
    (pieces : Decomposes before source tokens) (s : Cursor) (inside : 0 ≤ s.position)
    (ahead : s.ahead = cutComments false source)
    (placed : ∀ c ∈ source.head?, s.place.past c = (Place.behind before).past c) :
    s.tokens = tokens := by
  -- The scanner does not see comments, so behind one its column lags; `placed` asks for no more
  -- than the place behind the next character, and that is a line feed there.
  induction pieces generalizing s with
  | ends => exact tokens_of_end inside ahead
  | @blank before rest c tokens blank _ ih =>
    have other : commentMark ∉ [c] := by
      rw [List.mem_singleton]
      rintro rfl
      exact absurd blank (by decide)
    have cut := cutComments_append other rest
    rw [List.singleton_append] at cut
    rw [cut, List.singleton_append] at ahead
    rw [tokens_of_blank inside ahead blank]
    refine ih _ (position_moveOver inside [c]) ?_ fun d _ => ?_
    · rw [ahead_moveOver _ _ inside, ahead]
      rfl
    · have same : (s.moveOver [c]).place = .behind (before ++ [c]) := by
        rw [Place.behind_snoc]
        exact placed c rfl
      rw [same]
  | @comment before body rest tokens within closed _ ih =>
    rw [cutComments_comment within closed] at ahead
    have here : s.place = .behind before := Place.eq_of_past (by decide) (placed commentMark rfl)
    have within' : '\n' ∉ commentMark :: body := by
      simpa [show '\n' ≠ commentMark by decide] using within
    refine ih s inside ahead fun c member => ?_
    rw [closed c member]
    exact Place.past_feed (by rw [here, Place.line_behind within'])
  | @lexeme before rest l value tokens lexeme _ ih =>
    have here : s.place = .behind before := lexeme.place_eq placed
    rw [cutComments_append lexeme.plain] at ahead
    obtain ⟨first, left⟩ := tokens_of_isLexeme inside lexeme.uncommented ahead
    have others := ih _ (position_moveOver inside l.text) left fun d _ => by
      rw [Place.behind_append, ← here]
      rfl
    rw [first, others, here]

/-- Behind a number sign a comment goes on to the next line feed or to the end. -/
theorem exists_comment (rest : List Char) : ∃ body later, rest = body ++ later ∧
    '\n' ∉ body ∧ ∀ c ∈ later.head?, c = '\n' := by
  refine ⟨rest.takeWhile (· != '\n'), rest.dropWhile (· != '\n'),
    List.takeWhile_append_dropWhile.symm, fun member => ?_, fun c member => ?_⟩
  · have printed := List.all_eq_true.mp List.all_takeWhile _ member
    simp at printed
  · simpa using head_dropWhile c member

theorem exists_decomposes (before source : List Char) :
    ∃ tokens, Decomposes before source tokens := by
  -- Every piece leaves a shorter text.
  induction size : source.length using Nat.strongRecOn generalizing before source with
  | ind n ih =>
    cases source with
    | nil => exact ⟨[], .ends⟩
    | cons c rest =>
      rw [List.length_cons] at size
      by_cases blank : isBlank c = true
      · obtain ⟨tokens, others⟩ := ih rest.length (by omega) (before ++ [c]) rest rfl
        exact ⟨tokens, .blank blank others⟩
      by_cases mark : c = commentMark
      · subst mark
        obtain ⟨body, later, rfl, within, closed⟩ := exists_comment rest
        rw [List.length_append] at size
        obtain ⟨tokens, others⟩ := ih later.length (by omega) (before ++ commentMark :: body) _ rfl
        exact ⟨tokens, .comment within closed others⟩
      · obtain ⟨l, value, following, same, lexeme⟩ := exists_lexeme rest (by simpa using blank) mark
        obtain ⟨d, ds, text, _⟩ := lexeme.first_eq
        have shorter := congrArg List.length same
        rw [List.length_append, text, List.length_cons, List.length_cons] at shorter
        obtain ⟨tokens, others⟩ := ih following.length (by omega) (before ++ l.text) following rfl
        rw [same]
        exact ⟨_, .lexeme lexeme others⟩

theorem tokenize_of_decomposes {source : String} {tokens : List Token}
    (pieces : Decomposes [] source.toList tokens) : tokenize source = tokens := by
  refine Cursor.tokens_of_decomposes pieces _ (Int.le_refl 0) ?_ fun c _ => ?_
  · rw [stripComments, String.toList_ofList]
    rfl
  · rw [Place.behind_nil]
    rfl

theorem decomposes_tokenize (source : String) : Decomposes [] source.toList (tokenize source) := by
  obtain ⟨tokens, pieces⟩ := exists_decomposes [] source.toList
  rwa [tokenize_of_decomposes pieces]

/-- The tokens of a source text are its lexemes, in order and in their places, and nothing stands
between them but white space and comments. -/
theorem tokenize_eq_iff (source : String) (tokens : List Token) :
    tokenize source = tokens ↔ Decomposes [] source.toList tokens := by
  constructor
  · rintro rfl
    exact decomposes_tokenize source
  · exact tokenize_of_decomposes

end Formulary
