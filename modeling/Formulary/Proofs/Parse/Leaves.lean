import Formulary.Proofs.Parse.Exact

/-!
Nothing is lost and nothing invented: an accepted token list splits into semicolons and the tokens
of its items, and its names, numbers and operators are those of the items, in order.
-/
namespace Formulary

/-- What a token gives to a tree: a name, a number or an operator. -/
def Token.leaf? (t : Token) : Option (TokenKind × TokenValue) :=
  if t.kind = .name ∨ t.kind = .number ∨ t.kind = .operator then some (t.kind, t.value) else none

def nameLeaf (name : String) : TokenKind × TokenValue := (.name, .text name)

namespace Node

mutual

/-- The names, numbers and operators of an expression, as they are written. -/
def leaves : Node → List (TokenKind × TokenValue)
  | .literal x => [(.number, .number x)]
  | .reference name => [nameLeaf name]
  | .binary op left right => leaves left ++ (.operator, .text op) :: leaves right
  | .call callee args => nameLeaf callee :: leavesAll args
  | _ => []

def leavesAll : List Node → List (TokenKind × TokenValue)
  | [] => []
  | a :: as => leaves a ++ leavesAll as

end

/-- Those of an item; a bare expression has no name to write. -/
def itemLeaves : Node → List (TokenKind × TokenValue)
  | .declaration (.prototype p) => nameLeaf p.name :: p.params.map nameLeaf
  | .definition (.prototype p) body =>
    (if p = .anonymous then [] else nameLeaf p.name :: p.params.map nameLeaf) ++ body.leaves
  | _ => []

end Node

def Phrase.leaves : Phrase → List (TokenKind × TokenValue)
  | .expression e _ => e.leaves
  | .arguments args => Node.leavesAll args

variable {table : OperatorTable}

theorem leaf_of_carries {t : Token} {kind : TokenKind} {value : TokenValue}
    (token : t.Carries kind value) (leaf : kind = .name ∨ kind = .number ∨ kind = .operator) :
    t.leaf? = some (kind, value) := by
  obtain ⟨rfl, rfl⟩ := token
  simp only [Token.leaf?, if_pos leaf]

theorem leaf_of_mark {t : Token} {kind : TokenKind} (same : t.kind = kind)
    (mark : kind ≠ .name ∧ kind ≠ .number ∧ kind ≠ .operator) : t.leaf? = none := by
  subst same
  simp [Token.leaf?, mark]

theorem leaves_of_renders {phrase : Phrase} {w : List Token} (rendering : Renders table phrase w) :
    w.filterMap Token.leaf? = phrase.leaves := by
  induction rendering with
  | number token => simp [leaf_of_carries token, Phrase.leaves, Node.leaves]
  | reference token => simp [leaf_of_carries token, Phrase.leaves, Node.leaves, nameLeaf]
  | call token opens _ closes ih =>
    simp [leaf_of_carries token, leaf_of_mark opens, leaf_of_mark closes, ih, Phrase.leaves,
      Node.leaves, nameLeaf]
  | binary token _ _ _ _ _ ihLeft ihRight =>
    simp [leaf_of_carries token, ihLeft, ihRight, Phrase.leaves, Node.leaves]
  | group opens _ closes ih =>
    simp [leaf_of_mark opens, leaf_of_mark closes, ih, Phrase.leaves]
  | noArguments => rfl
  | argument _ ih => simp [ih, Phrase.leaves, Node.leavesAll]
  | moreArguments _ kind _ ihFirst ihRest =>
    simp [leaf_of_mark kind, ihFirst, ihRest, Phrase.leaves, Node.leavesAll]

theorem leaves_of_params {params : List String} {w : List Token}
    (rendering : RendersParams params w) : w.filterMap Token.leaf? = params.map nameLeaf := by
  induction rendering with
  | none => rfl
  | one token => simp [leaf_of_carries token, nameLeaf]
  | more token kind _ ih => simp [leaf_of_carries token, leaf_of_mark kind, ih, nameLeaf]

theorem leaves_of_prototype {p : Prototype} {w : List Token} (rendering : RendersPrototype p w) :
    w.filterMap Token.leaf? = nameLeaf p.name :: p.params.map nameLeaf := by
  cases rendering with
  | mk token opens inner closes =>
    simp [leaf_of_carries token, leaf_of_mark opens, leaf_of_mark closes, leaves_of_params inner,
      nameLeaf]

theorem leaves_of_item {node : Node} {w : List Token} (rendering : RendersItem table node w) :
    w.filterMap Token.leaf? = node.itemLeaves := by
  cases rendering with
  | declaration kind signature =>
    simp [leaf_of_mark kind, leaves_of_prototype signature, Node.itemLeaves]
  | @definition p _ _ _ _ _ kind named signature body =>
    have other : p ≠ .anonymous := by
      rintro rfl
      exact named rfl
    simp [leaf_of_mark kind, leaves_of_prototype signature, leaves_of_renders body,
      Node.itemLeaves, other, Phrase.leaves]
  | bare body => simp [leaves_of_renders body, Node.bare, Node.itemLeaves, Phrase.leaves]

theorem leaves_of_lists {nodes : List Node} {w : List Token} (listing : Lists table nodes w) :
    w.filterMap Token.leaf? = nodes.flatMap Node.itemLeaves := by
  induction listing with
  | nil => rfl
  | separator kind _ ih => simp [leaf_of_mark kind, ih]
  | item first _ _ ih => simp [leaves_of_item first, ih]

/-- An accepted token list is read to its end, lists the items that come out, and gives each of
its names, numbers and operators to them. -/
theorem program_renders_items (table : OperatorTable) (tokens : List Token) (nodes : List Node)
    (p : Parser) (wellFormed : ∀ t ∈ tokens, t.WellFormed)
    (parse : (Parser.mk tokens 0 table).program = (.ok nodes, p)) :
    p.position = tokens.length ∧ Lists table nodes tokens ∧
      tokens.filterMap Token.leaf? = nodes.flatMap Node.itemLeaves := by
  obtain ⟨rfl, listing⟩ := (program_eq_ok_iff wellFormed).mp parse
  exact ⟨rfl, listing, leaves_of_lists listing⟩

theorem program_renders_call :
    let f : Token := ⟨.name, .text "f", .nowhere⟩
    let opening : Token := ⟨.opening, .text "(", .nowhere⟩
    let x : Token := ⟨.name, .text "x", .nowhere⟩
    let closing : Token := ⟨.closing, .text ")", .nowhere⟩
    let separator : Token := ⟨.separator, .text ";", .nowhere⟩
    let tokens := [f, opening, x, closing, separator]
    let nodes : List Node := [.bare (.call "f" [.reference "x"])]
    (∀ t ∈ tokens, t.WellFormed) ∧
      (Parser.mk tokens 0 .default).program = (.ok nodes, ⟨tokens, 5, .default⟩) ∧
      Lists .default nodes tokens ∧
      tokens.filterMap Token.leaf? = nodes.flatMap Node.itemLeaves := by
  intro f opening x closing separator tokens nodes
  have parse : (Parser.mk tokens 0 .default).program = (.ok nodes, ⟨tokens, 5, .default⟩) := rfl
  have wellFormed : ∀ t ∈ tokens, t.WellFormed := by decide
  obtain ⟨_, listing, leaves⟩ :=
    program_renders_items .default tokens nodes ⟨tokens, 5, .default⟩ wellFormed parse
  exact ⟨wellFormed, parse, listing, leaves⟩

end Formulary
