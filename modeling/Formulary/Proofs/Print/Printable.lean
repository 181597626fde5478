import Formulary.Print
import Formulary.Proofs.OperatorTable
import Formulary.Proofs.Parse.Listing
import Formulary.Proofs.Source.Scanning
import Mathlib.Data.List.Forall2

/-!
What can be printed, and how its text is scanned. Names must be words that are not reserved,
operators such as a table may hold, numbers finite and without sign. The text of an expression is
then scanned as a rendering of it, whatever the powers are, because no operand of an operation is
an operation that stands without parentheses.
-/
namespace Formulary

def isName (name : String) : Bool :=
  match name.toList with
  | [] => false
  | c :: cs => isWordStart c && cs.all isWordChar && name != "def" && name != "extern"

namespace Node

mutual

/-- Whether an expression has a text that reads back. -/
def printable : Node → Bool
  | .literal (.finite negative _) => !negative
  | .reference name => isName name
  | .binary op left right =>
    (OperatorTable.checkSymbol (.text op)).isOk && printable left && printable right
  | .call callee args => isName callee && printableAll args
  | _ => false

def printableAll : List Node → Bool
  | [] => true
  | a :: as => printable a && printableAll as

end

mutual

/-- The operators of an item or an expression. -/
def operators : Node → List String
  | .binary op left right => op :: (operators left ++ operators right)
  | .call _ args => operatorsAll args
  | .definition _ body => operators body
  | _ => []

def operatorsAll : List Node → List String
  | [] => []
  | a :: as => operators a ++ operatorsAll as

end

end Node

def Prototype.printable (p : Prototype) : Bool := isName p.name && p.params.all isName

/-- Whether an item has a line that reads back; only a definition may be without a name. -/
def Node.printableItem : Node → Bool
  | .declaration (.prototype p) => p.printable
  | .definition (.prototype p) body => (p == .anonymous || p.printable) && body.printable
  | _ => false

/-- What no line holds but a space: neither other white space nor the beginning of a comment. -/
def isPlain (c : Char) : Bool := (c == ' ' || !isBlank c) && c != commentMark

/-- Some tokens stand for an expression, with or without parentheses around it. -/
def Renders.Some (table : OperatorTable) (e : Node) (w : List Token) : Prop :=
  ∃ loosest : Option Nat, Renders table (.expression e loosest) w

/-- A text that is scanned in one way and holds only plain characters. -/
structure Spells (text : List Char) (means : List Token → Prop) : Prop where
  plain : ∀ c ∈ text, isPlain c = true
  scans : Scans text means

variable {table : OperatorTable} {means : List Token → Prop} {text : List Char}

theorem spells_mono {weaker : List Token → Prop} (spells : Spells text means)
    (implies : ∀ w, means w → weaker w) : Spells text weaker :=
  ⟨spells.plain, scans_mono spells.scans implies⟩

theorem spells_nil : Spells [] (· = []) := ⟨by simp, scans_nil⟩

theorem spells_space (spells : Spells text means) : Spells (' ' :: text) means := by
  refine ⟨List.forall_mem_cons.mpr ⟨by decide, spells.plain⟩, ?_⟩
  exact scans_blank (by decide) spells.scans

theorem spells_mark (c : Char) (kind : TokenKind) (mark : punctuationKind? c = some kind)
    (spells : Spells text means) :
    Spells (c :: text) (Leads kind (.text (String.singleton c)) means) := by
  obtain ⟨visible, _, _, unmarked⟩ := apart_of_punctuation mark
  refine ⟨List.forall_mem_cons.mpr ⟨?_, spells.plain⟩, scans_mark mark spells.scans⟩
  simp [isPlain, visible, unmarked]

theorem checkSymbol_iff {op : String} : (OperatorTable.checkSymbol (.text op)).isOk = true ↔
    ∃ c : Char, op = String.singleton c ∧ isOperator c = true := by
  constructor
  · intro accepted
    cases checked : OperatorTable.checkSymbol (.text op) with
    | ok found =>
      have same := OperatorTable.checkSymbol_eq_ok_iff.mp checked
      exact ⟨found.val, Scalar.text.inj same, found.property⟩
    | error fault =>
      rw [checked] at accepted
      cases accepted
  · rintro ⟨c, rfl, operator⟩
    have checked : OperatorTable.checkSymbol (.text (String.singleton c)) = .ok ⟨c, operator⟩ :=
      OperatorTable.checkSymbol_eq_ok_iff.mpr rfl
    rw [checked]
    rfl

theorem spells_operator {op : String} (accepted : (OperatorTable.checkSymbol (.text op)).isOk = true)
    (spells : Spells text means) : Spells (op.toList ++ text) (Leads .operator (.text op) means) := by
  obtain ⟨c, rfl, operator⟩ := checkSymbol_iff.mp accepted
  obtain ⟨visible, _, unmarked, _⟩ := isOperator_iff.mp operator
  rw [String.toList_singleton]
  refine ⟨List.forall_mem_cons.mpr ⟨?_, spells.plain⟩, scans_operator operator spells.scans⟩
  simp [isPlain, visible, unmarked]

theorem isPlain_of_isWordChar {c : Char} (word : isWordChar c = true) : isPlain c = true := by
  have visible := isBlank_of_isWordChar word
  simp [isPlain, visible, ne_commentMark_of_isWordChar word]

theorem spells_word {c : Char} {cs : List Char} (start : isWordStart c = true)
    (word : ∀ d ∈ cs, isWordChar d = true) :
    Spells (c :: cs) (Leads (wordKind (String.ofList (c :: cs))) (.text (String.ofList (c :: cs)))
      (· = [])) := by
  refine ⟨List.forall_mem_cons.mpr ⟨?_, ?_⟩, scans_word start word⟩
  · exact isPlain_of_isWordChar (isWordChar_of_isWordStart start)
  · intro d member
    exact isPlain_of_isWordChar (word d member)

theorem isName_iff {name : String} : isName name = true ↔
    ∃ c cs, name = String.ofList (c :: cs) ∧ isWordStart c = true ∧
      (∀ d ∈ cs, isWordChar d = true) ∧ wordKind name = .name := by
  constructor
  · intro word
    simp only [isName] at word
    split at word
    · cases word
    · next c cs same =>
      simp only [Bool.and_eq_true, List.all_eq_true, bne_iff_ne] at word
      obtain ⟨⟨⟨start, inside⟩, definition⟩, declaration⟩ := word
      refine ⟨c, cs, ?_, start, inside, ?_⟩
      · rw [← same, String.ofList_toList]
      · simp [wordKind, definition, declaration]
  · rintro ⟨c, cs, rfl, start, inside, kind⟩
    simp only [wordKind] at kind
    split at kind
    · cases kind
    · split at kind
      · cases kind
      · simp_all [isName]

theorem spells_name {name : String} (word : isName name = true) :
    Spells name.toList (Leads .name (.text name) (· = [])) := by
  obtain ⟨c, cs, rfl, start, inside, kind⟩ := isName_iff.mp word
  have spells := spells_word start inside
  rw [kind] at spells
  rwa [String.toList_ofList]

theorem spells_number (code : Fin overflowCode) :
    Spells (Decimal.shortest code.val).positional
      (Leads .number (.number (.finite false code)) (· = [])) := by
  obtain ⟨whole, fraction, numeral, _⟩ := (Decimal.shortest code.val).positional_isNumeral
  have scans := scans_number numeral.isNumber
  rw [ofNumeral_positional] at scans
  refine ⟨?_, scans⟩
  rw [numeral.shape]
  intro c member
  have inside : c = '.' ∨ c ∈ whole ++ fraction := by
    simp only [List.mem_append, List.mem_cons] at member ⊢
    tauto
  rcases inside with rfl | inside
  · decide
  · exact isPlain_of_isWordChar (isWordChar_of_isDigit (isDigit_of_ascii (numeral.ascii c inside)))

theorem spells_append {c : Char} {v w : List Char} {first second : List Token → Prop}
    (front : Spells v first) (back : Spells (c :: w) second) (word : isWordChar c = false)
    (point : c ≠ '.') : Spells (v ++ c :: w) (Joins first second) := by
  refine ⟨?_, scans_append front.scans back.scans fun rest _ => breaks_cons word point (w ++ rest)⟩
  intro d member
  exact (List.mem_append.mp member).elim (front.plain d) (back.plain d)

theorem spells_front {c : Char} {v w : List Char} {kind : TokenKind} {value : TokenValue}
    (front : Spells v (Leads kind value (· = []))) (back : Spells (c :: w) means)
    (word : isWordChar c = false) (point : c ≠ '.') :
    Spells (v ++ c :: w) (Leads kind value means) := by
  refine spells_mono (spells_append front back word point) ?_
  rintro _ ⟨_, u, rfl, ⟨t, _, rfl, token, rfl⟩, meaning⟩
  exact ⟨t, u, rfl, token, meaning⟩

/-- Tokens between parentheses. -/
def Encloses (inner : List Token → Prop) (w : List Token) : Prop :=
  ∃ (opening : Token) (v : List Token) (closing : Token), w = opening :: (v ++ [closing]) ∧
    opening.kind = .opening ∧ inner v ∧ closing.kind = .closing

theorem spells_enclosed (spells : Spells text means) :
    Spells ('(' :: (text ++ [')'])) (Encloses means) := by
  have closes := spells_mark ')' .closing rfl spells_nil
  have behind := spells_append spells closes (by decide) (by decide)
  refine spells_mono (spells_mark '(' .opening rfl behind) ?_
  rintro _ ⟨opening, _, rfl, opens, v, _, rfl, meaning, closing, _, rfl, closes, rfl⟩
  exact ⟨opening, v, closing, rfl, opens.1, meaning, closes.1⟩

theorem spells_commas {α : Type} {one : α → List Token → Prop}
    (many : List α → List Token → Prop) (none : many [] []) (single : ∀ a w, one a w → many [a] w)
    (more : ∀ a b as v comma w, one a v → comma.kind = .comma → many (b :: as) w →
      many (a :: b :: as) (v ++ comma :: w))
    {as : List α} {texts : List String}
    (each : List.Forall₂ (fun a text => Spells text.toList (one a)) as texts) :
    Spells (commaJoined texts).toList (many as) := by
  induction each with
  | nil =>
    refine spells_mono spells_nil ?_
    rintro _ rfl
    exact none
  | @cons a text as texts first rest ih =>
    cases rest with
    | nil => exact spells_mono (by simpa [commaJoined] using first) (single a)
    | @cons b next bs others _ _ =>
      have behind := spells_mark ',' .comma rfl (spells_space ih)
      have joined := spells_append first behind (by decide) (by decide)
      have same : (commaJoined (text :: next :: others)).toList =
          text.toList ++ ',' :: ' ' :: (commaJoined (next :: others)).toList := by
        simp [commaJoined, String.intercalate_cons_cons]
      rw [same]
      refine spells_mono joined ?_
      rintro _ ⟨v, _, rfl, meaning, comma, w, rfl, token, others⟩
      exact more a b bs v comma w meaning token.1 others

end Formulary
