import Formulary.Proofs.Parse.Places
import Formulary.Proofs.Source.Decomposition

/-!
Layout is white space and comments with the line feeds that end them. Between two texts, of which
the first ends outside all comments, it keeps their tokens apart and leaves no other trace, so one
layout is as good as another.
-/
namespace Formulary

inductive IsLayout : List Char → Prop where
  | nil : IsLayout []
  | blank {c : Char} {w : List Char} (blank : isBlank c = true) (others : IsLayout w) :
    IsLayout (c :: w)
  | comment {body w : List Char} (within : '\n' ∉ body) (others : IsLayout w) :
    IsLayout (commentMark :: (body ++ '\n' :: w))

/-- What the scanner makes of a lexeme: a number is neither negative nor NaN. -/
def TokenValue.IsScanned (value : TokenValue) : Prop :=
  ∀ x, value = .number x → x.isNegative = false ∧ x ≠ .nan

namespace Binary64

theorem equals_self {x : Binary64} (number : x ≠ .nan) : x.equals x = true := by
  cases x with
  | nan => exact absurd rfl number
  | infinite negative => simp [equals]
  | finite negative code => simp [equals]

theorem eq_of_equals {x y : Binary64} (sign : x.isNegative = y.isNegative)
    (equal : x.equals y = true) : x = y := by
  cases x <;> cases y <;> simp_all [equals, isNegative]

end Binary64

theorem TokenValue.equals_iff {v w : TokenValue} (first : v.IsScanned) (second : w.IsScanned) :
    v.equals w = true ↔ v = w := by
  constructor
  · intro equal
    cases v with
    | number x =>
      cases w with
      | number y =>
        have sign := (first x rfl).1.trans (second y rfl).1.symm
        rw [Binary64.eq_of_equals sign equal]
      | _ => simp [equals] at equal
    | _ => simpa [equals] using equal
  · rintro rfl
    cases v with
    | number x => exact Binary64.equals_self (first x rfl).2
    | _ => simp [equals]

theorem Token.agrees_iff {a b : Token} (first : a.value.IsScanned) (second : b.value.IsScanned) :
    a.Agrees b ↔ a.equals b = true := by
  have equal : a.equals b = true ↔ a.kind = b.kind ∧ a.value = b.value := by
    rw [Token.equals, Bool.and_eq_true, beq_iff_eq, TokenValue.equals_iff first second]
  constructor
  · exact Agrees.equal
  · intro same
    obtain ⟨kind, value⟩ := equal.mp same
    exact ⟨kind, value, same⟩

theorem agrees_elsewhere {value : TokenValue} (scanned : value.IsScanned) (kind : TokenKind)
    (place other : Place) : (Token.mk kind value place).Agrees ⟨kind, value, other⟩ := by
  refine ⟨rfl, rfl, ?_⟩
  simp [Token.equals, (TokenValue.equals_iff scanned scanned).mpr rfl]

theorem IsLexeme.isScanned {l : Lexeme} {value : TokenValue} {following : List Char}
    (lexeme : IsLexeme l value following) : value.IsScanned := by
  rw [lexeme.value_eq, Lexeme.value]
  split
  · intro x same
    obtain rfl := TokenValue.number.inj same
    exact ⟨Binary64.isNegative_ofCode _ _, Binary64.ofCode_ne_nan _ _⟩
  · intro x same
    cases same

theorem decomposes_scanned {before source : List Char} {tokens : List Token}
    (pieces : Decomposes before source tokens) : ∀ t ∈ tokens, t.value.IsScanned := by
  induction pieces with
  | ends => simp
  | blank _ _ ih => exact ih
  | comment _ _ _ ih => exact ih
  | lexeme lexeme _ ih => exact List.forall_mem_cons.mpr ⟨lexeme.isScanned, ih⟩

/-- A text has the same pieces wherever it stands. -/
theorem decomposes_elsewhere {before source : List Char} {tokens : List Token}
    (pieces : Decomposes before source tokens) (elsewhere : List Char) :
    ∃ moved, Decomposes elsewhere source moved ∧ List.Forall₂ Token.Agrees moved tokens := by
  induction pieces generalizing elsewhere with
  | ends => exact ⟨[], .ends, .nil⟩
  | blank blank _ ih =>
    obtain ⟨moved, others, agree⟩ := ih _
    exact ⟨moved, .blank blank others, agree⟩
  | comment within closed _ ih =>
    obtain ⟨moved, others, agree⟩ := ih _
    exact ⟨moved, .comment within closed others, agree⟩
  | lexeme lexeme _ ih =>
    obtain ⟨moved, others, agree⟩ := ih _
    exact ⟨_, .lexeme lexeme others, .cons (agrees_elsewhere lexeme.isScanned _ _ _) agree⟩

theorem decomposes_layout {w : List Char} (layout : IsLayout w) {before rest : List Char}
    {tokens : List Token} (others : Decomposes (before ++ w) rest tokens) :
    Decomposes before (w ++ rest) tokens := by
  induction layout generalizing before with
  | nil => rwa [List.append_nil] at others
  | @blank c w blank _ ih =>
    refine .blank blank (ih ?_)
    rwa [List.append_assoc]
  | @comment body w within _ ih =>
    rw [List.cons_append, List.append_assoc]
    refine .comment within (by simp) (.blank (by decide) (ih ?_))
    simpa using others

theorem breaks_layout {w : List Char} (layout : IsLayout w) (nonempty : w ≠ [])
    (rest : List Char) : Breaks (w ++ rest) := by
  cases layout with
  | nil => exact absurd rfl nonempty
  | blank blank =>
    refine breaks_cons (isWordChar_of_isBlank blank) ?_ _
    rintro rfl
    exact absurd blank (by decide)
  | comment => exact breaks_cons (by decide) (by decide) _

theorem lastLine_of_plain {text : List Char} (plain : '\n' ∉ text) : lastLine text = text := by
  refine List.rtakeWhile_eq_self_iff.mpr fun c member => ?_
  rw [bne_iff_ne]
  rintro rfl
  exact plain member

theorem mem_lastLine_append {v : List Char} {c : Char} (u : List Char) (member : c ∈ lastLine v) :
    c ∈ lastLine (u ++ v) := by
  rw [lastLine, List.rtakeWhile, List.mem_reverse] at member ⊢
  rw [List.reverse_append, List.takeWhile_append]
  split
  · exact List.mem_append_left _ ((List.takeWhile_sublist _).subset member)
  · exact member

/-- A text that ends outside all comments, and one with layout in front of it. -/
theorem decomposes_glue {before first : List Char} {tokens : List Token}
    (pieces : Decomposes before first tokens) (closed : commentMark ∉ lastLine first)
    {w : List Char} (layout : IsLayout w) (nonempty : w ≠ []) {second : List Char}
    {others : List Token} (behind : Decomposes (before ++ first ++ w) second others) :
    Decomposes before (first ++ (w ++ second)) (tokens ++ others) := by
  induction pieces with
  | @ends before =>
    rw [List.append_nil] at behind
    exact decomposes_layout layout behind
  | @blank before rest c tokens blank _ ih =>
    refine .blank blank (ih (mt (mem_lastLine_append [c]) closed) ?_)
    simpa using behind
  | @comment before body rest tokens within ended _ ih =>
    -- A comment that no line feed ends would stand on the last line.
    have open' : rest ≠ [] := by
      rintro rfl
      rw [List.append_nil, lastLine_of_plain] at closed
      · simp at closed
      · simpa [show '\n' ≠ commentMark by decide] using within
    rw [List.cons_append, List.append_assoc]
    refine .comment within ?_ (ih (mt (mem_lastLine_append (commentMark :: body)) closed) ?_)
    · simpa [List.head?_append_of_ne_nil _ open'] using ended
    · simpa using behind
  | @lexeme before rest l value tokens lexeme _ ih =>
    rw [List.append_assoc, List.cons_append]
    refine .lexeme (lexeme.follow fun d member => ?_)
      (ih (mt (mem_lastLine_append l.text) closed) ?_)
    · cases rest with
      | nil => exact .inr (breaks_layout layout nonempty second d member)
      | cons c rest => exact .inl member
    · simpa using behind

theorem tokenize_glue {first w second : String} {moved : List Token}
    (closed : commentMark ∉ lastLine first.toList) (layout : IsLayout w.toList) (nonempty : w ≠ "")
    (pieces : Decomposes (first ++ w).toList second.toList moved) :
    tokenize (first ++ w ++ second) = tokenize first ++ moved := by
  refine tokenize_of_decomposes ?_
  rw [String.toList_append] at pieces
  rw [String.toList_append, String.toList_append, List.append_assoc]
  exact decomposes_glue (decomposes_tokenize first) closed layout
    (mt String.toList_eq_nil_iff.mp nonempty) pieces

theorem scanned_tokenize (source : String) : ∀ t ∈ tokenize source, t.value.IsScanned :=
  decomposes_scanned (decomposes_tokenize source)

theorem agree_self (source : String) :
    List.Forall₂ Token.Agrees (tokenize source) (tokenize source) :=
  List.forall₂_same.mpr fun t member =>
    agrees_elsewhere (scanned_tokenize source t member) t.kind t.place t.place

theorem agree_of_equals {v w : List Token} (first : ∀ t ∈ v, t.value.IsScanned)
    (second : ∀ t ∈ w, t.value.IsScanned)
    (equal : List.Forall₂ (fun a b => a.equals b = true) v w) : List.Forall₂ Token.Agrees v w := by
  induction equal with
  | nil => exact .nil
  | cons same _ ih =>
    obtain ⟨here, later⟩ := List.forall_mem_cons.mp first
    obtain ⟨here', later'⟩ := List.forall_mem_cons.mp second
    exact .cons ((Token.agrees_iff here here').mpr same) (ih later later')

theorem parseSource_agree {table : OperatorTable} {source other : String}
    (agree : List.Forall₂ Token.Agrees (tokenize source) (tokenize other)) :
    SameOutcome Fault.Same (parseSource table source) (parseSource table other) :=
  (parse_agree agree).mapError fun _ _ => And.right

/-- Layout keeps the tokens of two texts apart and does nothing else, sources with equal tokens
have the same outcome, and so one layout is as good as another. -/
theorem layout_independent (table : OperatorTable) :
    (∀ first w second : String, commentMark ∉ lastLine first.toList → IsLayout w.toList → w ≠ "" →
      ∃ moved, tokenize (first ++ w ++ second) = tokenize first ++ moved ∧
        List.Forall₂ Token.Agrees moved (tokenize second)) ∧
    (∀ source other : String,
      List.Forall₂ (fun a b => a.equals b = true) (tokenize source) (tokenize other) →
        SameOutcome Fault.Same (parseSource table source) (parseSource table other)) ∧
    (∀ first w w' second : String, commentMark ∉ lastLine first.toList →
      IsLayout w.toList → w ≠ "" → IsLayout w'.toList → w' ≠ "" →
        SameOutcome Fault.Same (parseSource table (first ++ w ++ second))
          (parseSource table (first ++ w' ++ second))) := by
  refine ⟨?_, ?_, ?_⟩
  · intro first w second closed layout nonempty
    obtain ⟨moved, pieces, agree⟩ :=
      decomposes_elsewhere (decomposes_tokenize second) (first ++ w).toList
    exact ⟨moved, tokenize_glue closed layout nonempty pieces, agree⟩
  · intro source other equal
    exact parseSource_agree
      (agree_of_equals (scanned_tokenize source) (scanned_tokenize other) equal)
  · intro first w w' second closed layout nonempty layout' nonempty'
    obtain ⟨moved, pieces, _⟩ :=
      decomposes_elsewhere (decomposes_tokenize second) (first ++ w').toList
    -- The second text is moved from behind one layout to behind the other.
    obtain ⟨moved', pieces', agree⟩ := decomposes_elsewhere pieces (first ++ w).toList
    apply parseSource_agree
    rw [tokenize_glue closed layout nonempty pieces', tokenize_glue closed layout' nonempty' pieces]
    exact List.rel_append (agree_self first) agree

/-- Two names with a blank or an empty comment between them, and a name behind a blank. -/
theorem layout_independent_names :
    commentMark ∉ lastLine "f".toList ∧ IsLayout " ".toList ∧ IsLayout "#\n".toList ∧
      List.Forall₂ (fun a b => a.equals b = true) (tokenize "x") (tokenize " x") ∧
      (∃ moved, tokenize ("f" ++ " " ++ "x") = tokenize "f" ++ moved ∧
        List.Forall₂ Token.Agrees moved (tokenize "x")) ∧
      SameOutcome Fault.Same (parseSource .default "x") (parseSource .default " x") ∧
      SameOutcome Fault.Same (parseSource .default ("f" ++ " " ++ "x"))
        (parseSource .default ("f" ++ "#\n" ++ "x")) := by
  have closed : commentMark ∉ lastLine "f".toList := by decide
  have space : IsLayout " ".toList := .blank (by decide) .nil
  have comment : IsLayout "#\n".toList := @IsLayout.comment [] [] (by simp) .nil
  have name (before : List Char) : Decomposes before "x".toList
      [⟨wordKind "x", .text "x", .behind before⟩] :=
    .lexeme (@IsLexeme.word 'x' [] [] (by decide) (by simp) (by simp)) .ends
  have equal : List.Forall₂ (fun a b => a.equals b = true) (tokenize "x") (tokenize " x") := by
    rw [tokenize_of_decomposes (name []),
      tokenize_of_decomposes (.blank (by decide) (name [' ']))]
    exact .cons (by simp [Token.equals, TokenValue.equals]) .nil
  obtain ⟨glued, alike, moved⟩ := layout_independent .default
  exact ⟨closed, space, comment, equal, glued "f" " " "x" closed space (by decide),
    alike "x" " x" equal, moved "f" " " "#\n" "x" closed space (by decide) comment (by decide)⟩

end Formulary
