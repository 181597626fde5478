import Formulary.Proofs.Parse.Grammar
import Formulary.Proofs.Source.Lexemes

/-!
How a text is scanned piece by piece. What the scanner makes of a piece is the same wherever the
piece stands, if no word and no number at its end is carried on by what follows.
-/
namespace Formulary

/-- No word and no number goes on here. -/
def Breaks (rest : List Char) : Prop := ∀ c ∈ rest.head?, isWordChar c = false ∧ c ≠ '.'

theorem breaks_cons {c : Char} (word : isWordChar c = false) (point : c ≠ '.') (rest : List Char) :
    Breaks (c :: rest) := by
  intro d member
  obtain rfl := Option.some.inj member
  exact ⟨word, point⟩

/-- Wherever the text stands in front of a break, the scanner makes of it tokens of which `means`
holds. -/
def Scans (text : List Char) (means : List Token → Prop) : Prop :=
  ∀ (s : Cursor) (rest : List Char), 0 ≤ s.position → s.ahead = text ++ rest → Breaks rest →
    ∃ (w : List Token) (next : Cursor), means w ∧ s.tokens = w ++ next.tokens ∧
      0 ≤ next.position ∧ next.ahead = rest

/-- A token of some kind and value comes first. -/
def Leads (kind : TokenKind) (value : TokenValue) (means : List Token → Prop)
    (w : List Token) : Prop :=
  ∃ (t : Token) (v : List Token), w = t :: v ∧ t.Carries kind value ∧ means v

def Joins (first second : List Token → Prop) (w : List Token) : Prop :=
  ∃ u v : List Token, w = u ++ v ∧ first u ∧ second v

namespace Cursor

theorem position_moveOver {s : Cursor} (inside : 0 ≤ s.position) (text : List Char) :
    0 ≤ (s.moveOver text).position := by
  simp only [moveOver]
  omega

theorem moveOver_append {s : Cursor} (inside : 0 ≤ s.position) (v w : List Char) :
    (s.moveOver v).moveOver w = s.moveOver (v ++ w) := by
  have moved := position_moveOver inside v
  simp only [moveOver] at moved
  simp only [moveOver, if_pos inside, if_pos moved, List.length_append, Place.pastAll,
    List.foldl_append, List.drop_drop, Int.natCast_add, mk.injEq, true_and, and_true]
  omega

theorem tokens_of_blank {s : Cursor} {c : Char} {rest : List Char} (inside : 0 ≤ s.position)
    (ahead : s.ahead = c :: rest) (blank : isBlank c = true) :
    s.tokens = (s.moveOver [c]).tokens := by
  have left : (s.moveOver [c]).ahead = rest := by
    rw [ahead_moveOver s [c] inside, ahead]
    rfl
  have skipped : s.skipBlanks = (s.moveOver [c]).skipBlanks := by
    rw [skipBlanks, skipBlanks, left, moveOver_append inside, ahead,
      List.takeWhile_cons_of_pos blank]
    rfl
  have same : s.scan = (s.moveOver [c]).scan := by rw [scan, scan, skipped]
  unfold tokens
  rw [same]

theorem scan_of_lexeme {s : Cursor} {c : Char} {rest : List Char} (inside : 0 ≤ s.position)
    (ahead : s.ahead = c :: rest) (visible : isBlank c = false) :
    s.scan = ((Lexeme.first c rest).token s.place, s.moveOver (Lexeme.first c rest).text) := by
  have blanks : s.skipBlanks = s.moveOver [] := by
    rw [skipBlanks, ahead, List.takeWhile_cons_of_neg (by simp [visible])]
  have unmoved : s.skipBlanks.ahead = c :: rest := by
    rw [blanks, ahead_moveOver s [] inside, ahead]
    rfl
  simp only [scan, unmoved]
  rw [blanks, moveOver_append inside, List.nil_append]
  rfl

theorem scan_of_isLexeme {s : Cursor} {l : Lexeme} {value : TokenValue} {following : List Char}
    (inside : 0 ≤ s.position) (lexeme : IsLexeme l value following)
    (ahead : s.ahead = l.text ++ following) :
    s.scan = (⟨l.kind, value, s.place⟩, s.moveOver l.text) ∧
      (s.moveOver l.text).ahead = following := by
  obtain ⟨c, cs, same, visible, first⟩ := lexeme.first_eq
  constructor
  · rw [same, List.cons_append] at ahead
    rw [scan_of_lexeme inside ahead visible, first, lexeme.value_eq]
    rfl
  · rw [ahead_moveOver _ _ inside, ahead, List.drop_left]

theorem tokens_of_isLexeme {s : Cursor} {l : Lexeme} {value : TokenValue} {following : List Char}
    (inside : 0 ≤ s.position) (lexeme : IsLexeme l value following)
    (ahead : s.ahead = l.text ++ following) :
    s.tokens = ⟨l.kind, value, s.place⟩ :: (s.moveOver l.text).tokens ∧
      (s.moveOver l.text).ahead = following := by
  obtain ⟨step, left⟩ := scan_of_isLexeme inside lexeme ahead
  refine ⟨?_, left⟩
  have live : l.kind ≠ .ending := by
    obtain ⟨c, cs, _, _, first⟩ := lexeme.first_eq
    rw [← first]
    exact Lexeme.first_kind_ne_ending c _
  rw [tokens, dif_neg]
  · rw [step]
  · rw [step]
    exact live

theorem tokens_of_end {s : Cursor} (inside : 0 ≤ s.position) (ahead : s.ahead = []) :
    s.tokens = [] := by
  have unmoved : s.skipBlanks.ahead = [] := by
    rw [skipBlanks, ahead_moveOver s _ inside, ahead]
    rfl
  rw [tokens, dif_pos]
  simp only [scan, unmoved]
  rfl

theorem wellFormed_lexeme (c : Char) (rest : List Char) (place : Place) :
    ((Lexeme.first c rest).token place).WellFormed := by
  constructor
  · exact Lexeme.first_kind_ne_ending c rest
  · intro tag
    simp only [Lexeme.token, Lexeme.first, wordKind]
    split
    · split
      · simp
      · split <;> simp
    · split
      · simp
      · split
        · next kind mark =>
          rcases punctuation_iff.mp mark with ⟨_, rfl⟩ | ⟨_, rfl⟩ | ⟨_, rfl⟩ | ⟨_, rfl⟩ <;> simp
        · simp
  · intro number
    exact ⟨_, if_pos number⟩
  · intro other
    refine ⟨String.ofList (Lexeme.first c rest).text, ?_, if_neg other⟩
    rw [Ne, String.ofList_eq_empty_iff]
    exact Lexeme.first_text_ne_nil c rest

theorem wellFormed_tokens (s : Cursor) : ∀ t ∈ s.tokens, t.WellFormed := by
  fun_induction tokens s with
  | case1 s ends => simp
  | case2 s live ih =>
    refine List.forall_mem_cons.mpr ⟨?_, ih⟩
    simp only [scan] at live ⊢
    split
    · next empty => simp [empty, Token.endOfInput] at live
    · exact wellFormed_lexeme _ _ _

end Cursor

variable {means : List Token → Prop} {text : List Char}

theorem scans_mono {weaker : List Token → Prop} (scans : Scans text means)
    (implies : ∀ w, means w → weaker w) : Scans text weaker := by
  intro s rest inside ahead breaks
  obtain ⟨w, next, meaning, reached⟩ := scans s rest inside ahead breaks
  exact ⟨w, next, implies w meaning, reached⟩

theorem scans_nil : Scans [] (· = []) := by
  intro s rest inside ahead _
  exact ⟨[], s, rfl, rfl, inside, ahead⟩

theorem scans_blank {c : Char} (blank : isBlank c = true) (scans : Scans text means) :
    Scans (c :: text) means := by
  intro s rest inside ahead breaks
  have left : (s.moveOver [c]).ahead = text ++ rest := by
    rw [Cursor.ahead_moveOver s [c] inside, ahead]
    rfl
  rw [Cursor.tokens_of_blank inside ahead blank]
  exact scans (s.moveOver [c]) rest (Cursor.position_moveOver inside [c]) left breaks

theorem scans_append {v w : List Char} {first second : List Token → Prop} (front : Scans v first)
    (back : Scans w second) (apart : ∀ rest, Breaks rest → Breaks (w ++ rest)) :
    Scans (v ++ w) (Joins first second) := by
  intro s rest inside ahead breaks
  rw [List.append_assoc] at ahead
  obtain ⟨u, middle, meaning, same, inside', ahead'⟩ :=
    front s (w ++ rest) inside ahead (apart rest breaks)
  obtain ⟨x, last, meaning', same', reached⟩ := back middle rest inside' ahead' breaks
  exact ⟨u ++ x, last, ⟨u, x, rfl, meaning, meaning'⟩, by rw [same, same', List.append_assoc],
    reached⟩

/-- A lexeme in front of a text, if it ends where the text begins. -/
theorem scans_lexeme {l : Lexeme} {value : TokenValue} (text : List Char)
    (lexeme : ∀ rest, Breaks rest → IsLexeme l value (text ++ rest)) (scans : Scans text means) :
    Scans (l.text ++ text) (Leads l.kind value means) := by
  intro s rest inside ahead breaks
  rw [List.append_assoc] at ahead
  obtain ⟨first, left⟩ := Cursor.tokens_of_isLexeme inside (lexeme rest breaks) ahead
  obtain ⟨w, next, meaning, others, reached⟩ :=
    scans _ rest (Cursor.position_moveOver inside l.text) left breaks
  refine ⟨⟨l.kind, value, s.place⟩ :: w, next, ⟨_, w, rfl, ⟨rfl, rfl⟩, meaning⟩, ?_, reached⟩
  rw [first, others, List.cons_append]

theorem scans_mark {c : Char} {kind : TokenKind} (mark : punctuationKind? c = some kind)
    (scans : Scans text means) : Scans (c :: text) (Leads kind (.text (String.singleton c)) means) :=
  scans_lexeme text (fun _ _ => .mark mark) scans

theorem scans_operator {c : Char} (operator : isOperator c = true) (scans : Scans text means) :
    Scans (c :: text) (Leads .operator (.text (String.singleton c)) means) := by
  obtain ⟨visible, word, other, unmarked⟩ := isOperator_iff.mp operator
  obtain ⟨start, digit, _⟩ := isWordChar_eq_false.mp word
  exact scans_lexeme text (fun _ _ => .operator visible start digit unmarked other) scans

theorem scans_whole {l : Lexeme} {value : TokenValue}
    (lexeme : ∀ rest, Breaks rest → IsLexeme l value rest) :
    Scans l.text (Leads l.kind value (· = [])) := by
  have scans := scans_lexeme [] lexeme scans_nil
  rwa [List.append_nil] at scans

theorem scans_word {c : Char} {cs : List Char} (start : isWordStart c = true)
    (word : ∀ d ∈ cs, isWordChar d = true) :
    Scans (c :: cs) (Leads (wordKind (String.ofList (c :: cs))) (.text (String.ofList (c :: cs)))
      (· = [])) :=
  scans_whole fun _ breaks => .word start word fun d member => (breaks d member).1

theorem scans_number {cs whole : List Char} {fraction : Option (List Char)}
    (number : IsNumber cs whole fraction) :
    Scans cs (Leads .number (.number (.ofNumeral cs)) (· = [])) := by
  refine scans_whole fun _ breaks => .number number (read_number number) fun d member => ?_
  obtain ⟨word, point⟩ := breaks d member
  exact ⟨(isWordChar_eq_false.mp word).2.1, fun _ => point⟩

theorem cutComments_append {text : List Char} (plain : commentMark ∉ text) (rest : List Char) :
    cutComments false (text ++ rest) = text ++ cutComments false rest := by
  induction text with
  | nil => rfl
  | cons c text ih =>
    obtain ⟨other, later⟩ := not_or.mp (mt List.mem_cons.mpr plain)
    simp [cutComments, ih later, Ne.symm other]

theorem cutComments_of_plain {text : List Char} (plain : commentMark ∉ text) :
    cutComments false text = text := by
  have cut := cutComments_append plain []
  rwa [List.append_nil, cutComments, List.append_nil] at cut

theorem wellFormed_tokenize (source : String) : ∀ t ∈ tokenize source, t.WellFormed :=
  Cursor.wellFormed_tokens _

/-- A text without comments means as a whole what it means as a piece. -/
theorem tokenize_of_scans (scans : Scans text means) (plain : commentMark ∉ text) :
    means (tokenize (String.ofList text)) := by
  have stripped : (stripComments (String.ofList text)).toList = text := by
    rw [stripComments, String.toList_ofList, String.toList_ofList, cutComments_of_plain plain]
  have ahead : (Cursor.start text).ahead = text ++ [] := by
    simp [Cursor.start, Cursor.placed, Cursor.ahead]
  have breaks : Breaks [] := by simp [Breaks]
  obtain ⟨w, last, meaning, same, inside, left⟩ := scans (.start text) [] (Int.le_refl 0) ahead breaks
  rw [tokenize, stripped, same, Cursor.tokens_of_end inside left, List.append_nil]
  exact meaning

end Formulary
