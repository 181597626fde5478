import Formulary.Proofs.Print.Printable
import Formulary.Proofs.Source.Layout

/-!
Operators of tables and operators of texts. What a table may hold is scanned as an operator wherever
words and white space stand around it. What is scanned as one may stand in a table, unless it is a
character that only carries words on.
-/
namespace Formulary

namespace OperatorTable

/-- Every key of an accepted table is a single operator character. -/
theorem symbol_of_ofEntries {entries : List (Scalar × Scalar)} {table : OperatorTable}
    (accepted : ofEntries entries = .ok table) :
    ∀ entry ∈ entries, ∃ c : Char, entry.1 = .text (String.singleton c) ∧ isOperator c = true := by
  intro entry member
  have given : entry.1 ∈ entries.map (·.1) := List.mem_map_of_mem member
  have key : entry.1 ∈ (Assoc.putAll [] entries).map (·.1) := Assoc.mem_keys_putAll.mpr (.inr given)
  rw [ofEntries_eq_ok_iff.mp accepted] at key
  obtain ⟨put, inside, same⟩ := List.mem_map.mp key
  obtain ⟨found, _, rfl⟩ := List.mem_map.mp inside
  exact ⟨found.symbol, same.symm, found.isOperator_symbol⟩

theorem ofEntries_of_isOperator {c : Char} (operator : isOperator c = true) (power : Nat) :
    (ofEntries [(.text (String.singleton c), .integer power)]).isOk = true := by
  have accepted : ofEntries [(.text (String.singleton c), .integer power)] =
      .ok ⟨[⟨c, power, operator⟩]⟩ := ofEntries_eq_ok_iff.mpr rfl
  rw [accepted]
  rfl

end OperatorTable

theorem decomposes_operator {c : Char} (operator : isOperator c = true) {before rest : List Char}
    {tokens : List Token} (others : Decomposes (before ++ [c]) rest tokens) :
    Decomposes before (c :: rest)
      (⟨.operator, .text (String.singleton c), .behind before⟩ :: tokens) := by
  obtain ⟨visible, word, other, unmarked⟩ := isOperator_iff.mp operator
  obtain ⟨start, digit, _⟩ := isWordChar_eq_false.mp word
  exact .lexeme (.operator visible start digit unmarked other) others

theorem decomposes_name {name : String} (word : isName name = true) {before rest : List Char}
    {tokens : List Token} (ends : ∀ d ∈ rest.head?, isWordChar d = false)
    (others : Decomposes (before ++ name.toList) rest tokens) :
    Decomposes before (name.toList ++ rest) (⟨.name, .text name, .behind before⟩ :: tokens) := by
  obtain ⟨c, cs, rfl, start, inside, kind⟩ := isName_iff.mp word
  rw [String.toList_ofList] at others ⊢
  have lexeme := IsLexeme.word start inside ends
  rw [kind] at lexeme
  exact .lexeme lexeme others

/-- Between two texts an operator that blanks set apart is a token of its own. -/
theorem tokenize_apart {c : Char} (operator : isOperator c = true) {first : String}
    (closed : commentMark ∉ lastLine first.toList) (second : String) : ∃ moved,
      tokenize (first ++ " " ++ String.singleton c ++ " " ++ second) =
        tokenize first ++ ⟨.operator, .text (String.singleton c), .behind (first ++ " ").toList⟩ ::
          moved ∧
      List.Forall₂ Token.Agrees moved (tokenize second) := by
  obtain ⟨moved, pieces, agree⟩ :=
    decomposes_elsewhere (decomposes_tokenize second) ((first ++ " ").toList ++ [c] ++ [' '])
  have behind := decomposes_operator operator (.blank (by decide) pieces)
  have space : IsLayout " ".toList := .blank (by decide) .nil
  have text : c :: ' ' :: second.toList = (String.singleton c ++ " " ++ second).toList := by simp
  rw [text] at behind
  have glued := tokenize_glue closed space (by decide) behind
  refine ⟨moved, ?_, agree⟩
  rw [← glued]
  simp only [String.append_assoc]

/-- Between two names nothing need set an operator apart. -/
theorem tokenize_between {c : Char} (operator : isOperator c = true) {left right : String}
    (word : isName left = true) (word' : isName right = true) :
    tokenize (left ++ String.singleton c ++ right) =
      [⟨.name, .text left, .start⟩,
        ⟨.operator, .text (String.singleton c), .behind left.toList⟩,
        ⟨.name, .text right, .behind (left ++ String.singleton c).toList⟩] := by
  refine tokenize_of_decomposes ?_
  have last : Decomposes (left ++ String.singleton c).toList (right.toList ++ []) _ :=
    decomposes_name word' (by simp) .ends
  rw [List.append_nil] at last
  have ends : ∀ d ∈ (c :: right.toList).head?, isWordChar d = false := by
    intro d member
    obtain rfl := Option.some.inj member
    exact (isOperator_iff.mp operator).2.1
  have whole : Decomposes [] (left.toList ++ c :: right.toList) _ :=
    decomposes_name word ends (decomposes_operator operator (by simpa using last))
  rw [Place.behind_nil] at whole
  simpa using whole

theorem operator_of_decomposes {before source : List Char} {tokens : List Token}
    (pieces : Decomposes before source tokens) : ∀ t ∈ tokens, t.kind = .operator →
      ∃ c : Char, t.value = .text (String.singleton c) ∧
        (isOperator c = true ∨ isWordChar c = true ∧ isWordStart c = false ∧ isDigit c = false) := by
  induction pieces with
  | ends => simp
  | blank _ _ ih => exact ih
  | comment _ _ _ ih => exact ih
  | @lexeme _ _ l value _ lexeme _ ih =>
    refine List.forall_mem_cons.mpr ⟨fun kind => ?_, ih⟩
    cases lexeme with
    | word =>
      dsimp only [wordKind] at kind
      split at kind
      · cases kind
      · split at kind <;> cases kind
    | number => cases kind
    | mark mark =>
      rcases punctuation_iff.mp mark with ⟨_, rfl⟩ | ⟨_, rfl⟩ | ⟨_, rfl⟩ | ⟨_, rfl⟩ <;> cases kind
    | @operator c _ visible start digit unmarked other =>
      refine ⟨c, rfl, ?_⟩
      cases word : isWordChar c with
      | true => exact .inr ⟨rfl, start, digit⟩
      | false => exact .inl (isOperator_iff.mpr ⟨visible, word, other, unmarked⟩)

/-- The keys of every accepted table are scanned as operators, set apart by blanks or between names,
and every operator that is scanned may be such a key or is a character that only carries words
on. -/
theorem operators_agree :
    (∀ (entries : List (Scalar × Scalar)) (table : OperatorTable),
      OperatorTable.ofEntries entries = .ok table → ∀ entry ∈ entries, ∃ op : String,
        entry.1 = .text op ∧
        (∀ first second : String, commentMark ∉ lastLine first.toList → ∃ moved,
          tokenize (first ++ " " ++ op ++ " " ++ second) =
            tokenize first ++ ⟨.operator, .text op, .behind (first ++ " ").toList⟩ :: moved ∧
          List.Forall₂ Token.Agrees moved (tokenize second)) ∧
        ∀ left right : String, isName left = true → isName right = true →
          tokenize (left ++ op ++ right) =
            [⟨.name, .text left, .start⟩, ⟨.operator, .text op, .behind left.toList⟩,
              ⟨.name, .text right, .behind (left ++ op).toList⟩]) ∧
    ∀ (source : String), ∀ t ∈ tokenize source, t.kind = .operator → ∃ c : Char,
      t.value = .text (String.singleton c) ∧
        ((∀ power : Nat, (OperatorTable.ofEntries
            [(.text (String.singleton c), .integer power)]).isOk = true) ∨
          isWordChar c = true ∧ isWordStart c = false ∧ isDigit c = false) := by
  constructor
  · intro entries table accepted entry member
    obtain ⟨c, symbol, operator⟩ := OperatorTable.symbol_of_ofEntries accepted entry member
    exact ⟨_, symbol, fun first second closed => tokenize_apart operator closed second,
      fun left right word word' => tokenize_between operator word word'⟩
  · intro source t member kind
    obtain ⟨c, value, known | carries⟩ :=
      operator_of_decomposes (decomposes_tokenize source) t member kind
    · exact ⟨c, value, .inl (OperatorTable.ofEntries_of_isOperator known)⟩
    · exact ⟨c, value, .inr carries⟩

/-- A point as an operator: behind a number a blank sets it apart, between names nothing must. -/
theorem operators_agree_point :
    OperatorTable.ofEntries [(.text ".", .integer 7)] = .ok ⟨[⟨'.', 7, by decide⟩]⟩ ∧
      commentMark ∉ lastLine "x#\n1".toList ∧ isName "x" = true ∧ isName "y" = true ∧
      (∃ moved, tokenize ("x#\n1" ++ " " ++ "." ++ " " ++ "2") =
          tokenize "x#\n1" ++ ⟨.operator, .text ".", .behind ("x#\n1" ++ " ").toList⟩ :: moved ∧
        List.Forall₂ Token.Agrees moved (tokenize "2")) ∧
      tokenize ("x" ++ "." ++ "y") =
        [⟨.name, .text "x", .start⟩, ⟨.operator, .text ".", .behind "x".toList⟩,
          ⟨.name, .text "y", .behind ("x" ++ ".").toList⟩] ∧
      ∃ c : Char, TokenValue.text "." = .text (String.singleton c) ∧
        ((∀ power : Nat, (OperatorTable.ofEntries
            [(.text (String.singleton c), .integer power)]).isOk = true) ∨
          isWordChar c = true ∧ isWordStart c = false ∧ isDigit c = false) := by
  have accepted : OperatorTable.ofEntries [(.text ".", .integer 7)] =
      .ok ⟨[⟨'.', 7, by decide⟩]⟩ := rfl
  have closed : commentMark ∉ lastLine "x#\n1".toList := by decide
  have left : isName "x" = true := by decide
  have right : isName "y" = true := by decide
  obtain ⟨known, scanned⟩ := operators_agree
  obtain ⟨op, same, apart, between⟩ := known _ _ accepted _ (List.mem_singleton_self _)
  obtain rfl : "." = op := Scalar.text.inj same
  have tokens := between "x" "y" left right
  have member : ⟨.operator, .text ".", .behind "x".toList⟩ ∈ tokenize ("x" ++ "." ++ "y") := by
    rw [tokens]
    exact List.mem_cons_of_mem _ List.mem_cons_self
  exact ⟨accepted, closed, left, right, apart _ "2" closed, tokens, scanned _ _ member rfl⟩

end Formulary
