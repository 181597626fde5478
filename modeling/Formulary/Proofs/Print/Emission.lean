import Formulary.Proofs.Print.Printable
import Formulary.Proofs.Print.Writable
import Formulary.Proofs.Source.Layout

/-!
What comes out of a source text. Its names are words that are not reserved, its operators stand in
the table and its numbers are neither negative nor NaN. So it has a text in every target, unless
one of its numbers is too large for a double.
-/
namespace Formulary

namespace Node

mutual

/-- Whether an expression is one that a source text may hold. -/
def readable (table : OperatorTable) : Node → Bool
  | .literal x => !x.isNegative && x != .nan
  | .reference name => isName name
  | .binary op left right =>
    (table.powerOf? op).isSome && readable table left && readable table right
  | .call callee args => isName callee && readableAll table args
  | _ => false

def readableAll (table : OperatorTable) : List Node → Bool
  | [] => true
  | a :: as => readable table a && readableAll table as

end

/-- Whether an item is one; only a definition may be without a name. -/
def readableItem (table : OperatorTable) : Node → Bool
  | .declaration (.prototype p) => p.printable
  | .definition (.prototype p) body => (p == .anonymous || p.printable) && body.readable table
  | _ => false

end Node

def Phrase.readable (table : OperatorTable) : Phrase → Bool
  | .expression e _ => e.readable table
  | .arguments args => Node.readableAll table args

/-! ## From tokens to trees -/

/-- A token as a text gives it: a name is no reserved word, and a number is neither negative nor
NaN. -/
structure Token.IsRead (t : Token) : Prop where
  name : ∀ s, t.Carries .name (.text s) → isName s = true
  number : t.value.IsScanned

theorem IsLexeme.isRead {l : Lexeme} {value : TokenValue} {following : List Char}
    (lexeme : IsLexeme l value following) (place : Place) :
    (Token.mk l.kind value place).IsRead := by
  refine ⟨?_, lexeme.isScanned⟩
  rintro s ⟨kind, held⟩
  cases lexeme with
  | @word c cs _ start inside =>
    obtain rfl := TokenValue.text.inj held
    exact isName_iff.mpr ⟨c, cs, rfl, start, inside, kind⟩
  | number => cases kind
  | mark mark =>
    rcases punctuation_iff.mp mark with ⟨_, rfl⟩ | ⟨_, rfl⟩ | ⟨_, rfl⟩ | ⟨_, rfl⟩ <;> cases kind
  | operator => cases kind

theorem decomposes_read {before source : List Char} {tokens : List Token}
    (pieces : Decomposes before source tokens) : ∀ t ∈ tokens, t.IsRead := by
  induction pieces with
  | ends => simp
  | blank _ _ ih => exact ih
  | comment _ _ _ ih => exact ih
  | lexeme lexeme _ ih => exact List.forall_mem_cons.mpr ⟨lexeme.isRead _, ih⟩

section

variable {table : OperatorTable}

theorem readable_of_renders {phrase : Phrase} {w : List Token} (rendering : Renders table phrase w)
    (read : ∀ t ∈ w, t.IsRead) : phrase.readable table = true := by
  induction rendering with
  | number token =>
    obtain ⟨sign, number⟩ := (read _ (by simp)).number _ token.2
    simp [Phrase.readable, Node.readable, sign, number]
  | reference token => exact (read _ (by simp)).name _ token
  | call token _ _ _ ih =>
    have inner := ih fun t member => read t (by simp [member])
    exact Bool.and_eq_true_iff.mpr ⟨(read _ (by simp)).name _ token, inner⟩
  | binary _ known _ _ _ _ ihLeft ihRight =>
    have left := ihLeft fun t member => read t (by simp [member])
    have right := ihRight fun t member => read t (by simp [member])
    simp only [Phrase.readable] at left right
    simp [Phrase.readable, Node.readable, known, left, right]
  | group _ _ _ ih => exact ih fun t member => read t (by simp [member])
  | noArguments => rfl
  | argument _ ih => exact Bool.and_eq_true_iff.mpr ⟨ih read, rfl⟩
  | moreArguments _ _ _ ihFirst ihRest =>
    have first := ihFirst fun t member => read t (by simp [member])
    have rest := ihRest fun t member => read t (by simp [member])
    exact Bool.and_eq_true_iff.mpr ⟨first, rest⟩

theorem isName_of_params {params : List String} {w : List Token}
    (rendering : RendersParams params w) (read : ∀ t ∈ w, t.IsRead) : params.all isName = true := by
  induction rendering with
  | none => rfl
  | one token => simp [(read _ (by simp)).name _ token]
  | more token _ _ ih =>
    have rest := ih fun t member => read t (by simp [member])
    rw [List.all_cons, (read _ (by simp)).name _ token, rest]
    rfl

theorem printable_of_prototype {p : Prototype} {w : List Token} (rendering : RendersPrototype p w)
    (read : ∀ t ∈ w, t.IsRead) : p.printable = true := by
  cases rendering with
  | mk token _ inner _ =>
    have params := isName_of_params inner fun t member => read t (by simp [member])
    exact Bool.and_eq_true_iff.mpr ⟨(read _ (by simp)).name _ token, params⟩

theorem readable_of_item {node : Node} {w : List Token} (rendering : RendersItem table node w)
    (read : ∀ t ∈ w, t.IsRead) : node.readableItem table = true := by
  cases rendering with
  | declaration _ signature =>
    exact printable_of_prototype signature fun t member => read t (by simp [member])
  | definition _ _ signature body =>
    have named := printable_of_prototype signature fun t member => read t (by simp [member])
    have inside := readable_of_renders body fun t member => read t (by simp [member])
    simp only [Phrase.readable] at inside
    simp [Node.readableItem, named, inside]
  | bare body => exact readable_of_renders body read

theorem readable_of_lists {nodes : List Node} {w : List Token} (listing : Lists table nodes w)
    (read : ∀ t ∈ w, t.IsRead) : ∀ node ∈ nodes, node.readableItem table = true := by
  induction listing with
  | nil => simp
  | separator _ _ ih => exact ih fun t member => read t (by simp [member])
  | item first _ _ ih =>
    have own := readable_of_item first fun t member => read t (by simp [member])
    exact List.forall_mem_cons.mpr ⟨own, ih fun t member => read t (by simp [member])⟩

theorem readable_of_parse {source : String} {nodes : List Node}
    (parse : parseSource table source = .ok nodes) :
    ∀ node ∈ nodes, node.readableItem table = true := by
  have accepted := parseSource_eq_ok_iff.mp parse
  have listing := (parse_eq_ok_iff (wellFormed_tokenize source)).mp (Prod.ext accepted rfl)
  exact readable_of_lists listing.2 (decomposes_read (decomposes_tokenize source))

end

/-! ## From trees to texts -/

/-- A number as a text may give it; only an infinite one has no text. -/
def Binary64.IsUnsigned (x : Binary64) : Prop := x.isNegative = false ∧ x ≠ .nan

namespace Node

variable {table : OperatorTable}

mutual

theorem concrete_of_readable : ∀ e : Node, e.readable table = true →
    e.isConcrete = true ∧ ∀ x ∈ e.literals, x.IsUnsigned
  | .literal x, read => by
    simp only [readable, Bool.and_eq_true, Bool.not_eq_true', bne_iff_ne] at read
    exact ⟨rfl, List.forall_mem_singleton.mpr read⟩
  | .reference name, _ => ⟨rfl, by simp [literals]⟩
  | .binary op left right, read => by
    simp only [readable, Bool.and_eq_true] at read
    obtain ⟨leftShape, leftNumbers⟩ := concrete_of_readable left read.1.2
    obtain ⟨rightShape, rightNumbers⟩ := concrete_of_readable right read.2
    exact ⟨Bool.and_eq_true_iff.mpr ⟨leftShape, rightShape⟩,
      List.forall_mem_append.mpr ⟨leftNumbers, rightNumbers⟩⟩
  | .call callee args, read => by
    simp only [readable, Bool.and_eq_true] at read
    exact concrete_of_readableAll args read.2

theorem concrete_of_readableAll : ∀ args : List Node, readableAll table args = true →
    allConcrete args = true ∧ ∀ x ∈ literalsAll args, x.IsUnsigned
  | [], _ => ⟨rfl, by simp [literalsAll]⟩
  | a :: as, read => by
    simp only [readableAll, Bool.and_eq_true] at read
    obtain ⟨shape, numbers⟩ := concrete_of_readable a read.1
    obtain ⟨shapes, others⟩ := concrete_of_readableAll as read.2
    exact ⟨Bool.and_eq_true_iff.mpr ⟨shape, shapes⟩, List.forall_mem_append.mpr ⟨numbers, others⟩⟩

end

theorem concrete_of_readableItem {node : Node} (read : node.readableItem table = true) :
    node.isConcreteItem = true ∧ ∀ x ∈ node.literals, x.IsUnsigned := by
  unfold readableItem at read
  split at read
  · exact ⟨rfl, by simp [literals]⟩
  · exact concrete_of_readable _ (Bool.and_eq_true_iff.mp read).2
  · cases read

theorem concrete_of_program {nodes : List Node}
    (read : ∀ node ∈ nodes, node.readableItem table = true) :
    (∀ node ∈ nodes, node.isConcreteItem = true) ∧
      ∀ x ∈ nodes.flatMap literals, x.IsUnsigned := by
  refine ⟨fun node member => (concrete_of_readableItem (read node member)).1, ?_⟩
  intro x member
  obtain ⟨node, inside, own⟩ := List.mem_flatMap.mp member
  exact (concrete_of_readableItem (read node inside)).2 x own

end Node

namespace Binary64

theorem find_overflowed {numbers : List Binary64} (unsigned : ∀ x ∈ numbers, x.IsUnsigned) :
    numbers.find? (!·.isFinite) =
      if .infinite false ∈ numbers then some (.infinite false) else none := by
  induction numbers with
  | nil => rfl
  | cons x numbers ih =>
    obtain ⟨⟨sign, number⟩, others⟩ := List.forall_mem_cons.mp unsigned
    cases x with
    | nan => exact absurd rfl number
    | infinite negative =>
      obtain rfl : negative = false := sign
      simp [isFinite]
    | finite negative code =>
      rw [List.find?_cons_of_neg (by simp [isFinite]), ih others]
      simp

theorem printFault_overflowed {numbers : List Binary64}
    (unsigned : ∀ x ∈ numbers, x.IsUnsigned) :
    numbers.findSome? printFault? = (numbers.find? (!·.isFinite)).map .notFinite := by
  induction numbers with
  | nil => rfl
  | cons x numbers ih =>
    obtain ⟨⟨sign, number⟩, others⟩ := List.forall_mem_cons.mp unsigned
    cases x with
    | nan => exact absurd rfl number
    | infinite negative => rfl
    | finite negative code =>
      obtain rfl : negative = false := sign
      rw [List.find?_cons_of_neg (by simp [isFinite]), ← ih others]
      rfl

end Binary64

theorem transpile_source {nodes : List Node}
    (concrete : ∀ node ∈ nodes, node.isConcreteItem = true)
    (unsigned : ∀ x ∈ nodes.flatMap Node.literals, x.IsUnsigned) :
    Settles (if .infinite false ∈ nodes.flatMap Node.literals
      then some (TranspileFault.print (.notFinite (.infinite false))) else none)
      (Target.source.transpile nodes) := by
  have settles := Emitter.settles_transpile concrete
  rw [Binary64.printFault_overflowed unsigned, Binary64.find_overflowed unsigned] at settles
  split
  · next overflowed => rwa [if_pos overflowed] at settles
  · next finite => rwa [if_neg finite] at settles

theorem transpile_json {nodes : List Node}
    (concrete : ∀ node ∈ nodes, node.isConcreteItem = true)
    (unsigned : ∀ x ∈ nodes.flatMap Node.literals, x.IsUnsigned) :
    Settles (if .infinite false ∈ nodes.flatMap Node.literals
      then some (TranspileFault.json ⟨.ofIndent defaultIndent, .infinite false⟩) else none)
      (Target.json.transpile nodes) := by
  obtain ⟨records, made, numbers⟩ := Node.records_of_program concrete
  rw [Binary64.find_overflowed unsigned] at numbers
  have written := Emitter.transpile_records concrete made defaultIndent
  simp only [Target.transpile, written, Json.write, Json.unwritable?, numbers]
  split
  · exact rfl
  · exact ⟨_, rfl⟩

/-- What comes out of a source text has names that are words, operators of the table and numbers
without sign. It is written in both targets, or in neither if one of its numbers is infinite. -/
theorem transpile_of_parse (table : OperatorTable) (source : String) (nodes : List Node)
    (parse : parseSource table source = .ok nodes) :
    (∀ node ∈ nodes, node.readableItem table = true) ∧
      (.infinite false ∈ nodes.flatMap Node.literals →
        Target.source.transpile nodes = .error (.print (.notFinite (.infinite false))) ∧
        Target.json.transpile nodes =
          .error (.json ⟨.ofIndent defaultIndent, .infinite false⟩)) ∧
      (.infinite false ∉ nodes.flatMap Node.literals →
        (∃ text, Target.source.transpile nodes = .ok text) ∧
        ∃ text, Target.json.transpile nodes = .ok text) := by
  have read := readable_of_parse parse
  obtain ⟨concrete, unsigned⟩ := Node.concrete_of_program read
  have plain := transpile_source concrete unsigned
  have records := transpile_json concrete unsigned
  refine ⟨read, ?_, ?_⟩
  · intro overflowed
    rw [if_pos overflowed] at plain records
    exact ⟨plain, records⟩
  · intro finite
    rw [if_neg finite] at plain records
    exact ⟨plain, records⟩

theorem transpile_of_parse_sum :
    let nodes : List Node := [.bare (.binary "+" (.reference "x") (.reference "y"))]
    parseSource .default "x + y" = .ok nodes ∧
      (∀ node ∈ nodes, node.readableItem .default = true) ∧
      .infinite false ∉ nodes.flatMap Node.literals ∧
      (∃ text, Target.source.transpile nodes = .ok text) ∧
      ∃ text, Target.json.transpile nodes = .ok text := by
  intro nodes
  have second : Decomposes ['x', ' ', '+', ' '] ['y'] _ :=
    .lexeme (@IsLexeme.word 'y' [] [] (by decide) (by simp) (by simp)) .ends
  have between : Decomposes ['x'] [' ', '+', ' ', 'y'] _ :=
    .blank (by decide) (.lexeme (@IsLexeme.operator '+' _ (by decide) (by decide) (by decide) rfl
      (by decide)) (.blank (by decide) second))
  have blank : ∀ c ∈ [' ', '+', ' ', 'y'].head?, isWordChar c = false := by
    rintro c ⟨⟩
    decide
  have pieces : Decomposes [] "x + y".toList _ :=
    .lexeme (@IsLexeme.word 'x' [] _ (by decide) (by simp) blank) between
  have parse : parseSource .default "x + y" = .ok nodes := by
    rw [parseSource, tokenize_of_decomposes pieces]
    rfl
  obtain ⟨read, _, emitted⟩ := transpile_of_parse .default "x + y" nodes parse
  have finite : .infinite false ∉ nodes.flatMap Node.literals := List.not_mem_nil
  exact ⟨parse, read, finite, emitted finite⟩

end Formulary
