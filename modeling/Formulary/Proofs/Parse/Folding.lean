import Formulary.Proofs.Parse.Advances
import Formulary.Proofs.Parse.Grammar
import Formulary.Proofs.Parse.Unwinding

/-!
Operators folded onto an operand. What stands to the left is put into the tree as it is: the same
tokens fold the same operators and right operands onto anything else.
-/
namespace Formulary

/-- Operators of at least a power, each in front of an operand. -/
inductive DerivesOperations (table : OperatorTable) (least : Int) : List Token → Prop where
  | nil : DerivesOperations table least []
  | cons {t : Token} {power : Nat} {v w : List Token} (kind : t.kind = .operator)
      (known : table.powerOf? t.value.plain = some power) (enough : least ≤ (power : Int))
      (operand : Derives table .operand v) (rest : DerivesOperations table least w) :
      DerivesOperations table least (t :: (v ++ w))

/-- The operations that have the expression given as their leftmost operand. -/
def foldOnto (left : Node) (folds : List (String × Node)) : Node :=
  folds.foldl (fun left fold => .binary fold.1 left fold.2) left

namespace DerivesOperations

variable {table : OperatorTable} {least : Int} {v w : List Token}

theorem mono {lower : Int} (operations : DerivesOperations table least w) (le : lower ≤ least) :
    DerivesOperations table lower w := by
  induction operations with
  | nil => exact .nil
  | cons kind known enough operand _ ih =>
    exact .cons kind known (Int.le_trans le enough) operand ih

theorem append (first : DerivesOperations table least v)
    (second : DerivesOperations table least w) : DerivesOperations table least (v ++ w) := by
  induction first with
  | nil => exact second
  | cons kind known enough operand _ ih =>
    simpa using DerivesOperations.cons kind known enough operand ih

theorem expression (operations : DerivesOperations table least w)
    (operand : Derives table .operand v) : Derives table .expression (v ++ w) := by
  induction operations generalizing v with
  | nil => simpa using Derives.single operand
  | cons kind known _ right _ ih => exact .operation operand kind known (ih right)

end DerivesOperations

namespace Descends

variable {table : OperatorTable}

/-- What the tokens are that a descent takes where it succeeds. -/
def Derived (table : OperatorTable) : Routine → List Token → List Token → Prop
  | .operand, tokens, rest => ∃ w, tokens = w ++ rest ∧ Derives table .operand w
  | .group, tokens, rest =>
    ∃ w closing, tokens = w ++ closing :: rest ∧ closing.kind = .closing ∧
      Derives table .expression w
  | .arguments _ _, tokens, rest =>
    ∃ w closing, tokens = w ++ closing :: rest ∧ closing.kind = .closing ∧
      Derives table .arguments w
  | .expression, tokens, rest => ∃ w, tokens = w ++ rest ∧ Derives table .expression w
  | .operations least _, tokens, rest =>
    ∃ w, tokens = w ++ rest ∧ DerivesOperations table least w

theorem derived {routine : Routine} {tokens rest : List Token} {outcome : Except Fault Node}
    (descent : Descends table routine tokens outcome rest) :
    ∀ e, outcome = .ok e → Derived table routine tokens rest := by
  induction descent with
  | @number t rest _ kind =>
    intro _ _
    exact ⟨[t], rfl, .number kind⟩
  | @reference t rest kind =>
    intro _ _
    exact ⟨[t], rfl, .name kind⟩
  | @emptyCall t opening closing rest kind opens closes =>
    intro _ _
    exact ⟨[t, opening, closing], rfl, .emptyCall kind opens closes⟩
  | @call t opening tokens rest _ kind opens _ _ ih =>
    intro e same
    obtain ⟨w, closing, rfl, closes, inner⟩ := ih e same
    exact ⟨t :: opening :: (w ++ [closing]), by simp, .call kind opens inner closes⟩
  | @nested opening tokens rest _ opens _ ih =>
    intro e same
    obtain ⟨w, closing, rfl, closes, inner⟩ := ih e same
    exact ⟨opening :: (w ++ [closing]), by simp, .group opens inner closes⟩
  | @closed closing _ _ _ _ closes ih =>
    intro _ _
    obtain ⟨w, rfl, inner⟩ := ih _ rfl
    exact ⟨w, closing, rfl, closes, inner⟩
  | @nextArgument _ _ comma _ _ _ _ _ _ kind _ _ first others =>
    intro e same
    obtain ⟨v, rfl, inner⟩ := first _ rfl
    obtain ⟨w, closing, rfl, closes, rest⟩ := others e same
    exact ⟨v ++ comma :: w, closing, by simp, closes, .moreArguments inner kind rest⟩
  | @lastArgument _ _ closing _ _ _ _ closes ih =>
    intro _ _
    obtain ⟨w, rfl, inner⟩ := ih _ rfl
    exact ⟨w, closing, rfl, closes, .argument inner⟩
  | folded _ _ _ first others =>
    intro e same
    obtain ⟨v, rfl, operand⟩ := first _ rfl
    obtain ⟨w, rfl, operations⟩ := others e same
    exact ⟨v ++ w, by simp, operations.expression operand⟩
  | rests =>
    intro _ _
    exact ⟨[], rfl, .nil⟩
  | looser =>
    intro _ _
    exact ⟨[], rfl, .nil⟩
  | @fold least _ _ _ t _ _ _ _ power _ kind known enough _ _ _ _ first second others =>
    intro e same
    obtain ⟨v, rfl, operand⟩ := first _ rfl
    obtain ⟨u, rfl, tighter⟩ := second _ rfl
    obtain ⟨w, rfl, looser⟩ := others e same
    -- What the right operand absorbs binds even more tightly than this operator.
    have between := tighter.mono (by omega : least ≤ (power : Int) + 1)
    exact ⟨t :: (v ++ (u ++ w)), by simp,
      .cons kind known enough operand (between.append looser)⟩
  | _ => intro _ same; cases same

/-- The left operand is folded upon and never looked at. -/
def Opaque (table : OperatorTable) (tokens : List Token) (e : Node) (rest : List Token) :
    Routine → Prop
  | .operations least left => ∃ folds, e = foldOnto left folds ∧
    ∀ x, Descends table (.operations least x) tokens (.ok (foldOnto x folds)) rest
  | _ => True

theorem left_opaque {routine : Routine} {tokens rest : List Token} {outcome : Except Fault Node}
    (descent : Descends table routine tokens outcome rest) :
    ∀ e, outcome = .ok e → Opaque table tokens e rest routine := by
  induction descent with
  | rests other =>
    intro e same
    exact ⟨[], (Except.ok.inj same).symm, fun _ => .rests other⟩
  | looser kind known below =>
    intro e same
    exact ⟨[], (Except.ok.inj same).symm, fun _ => .looser kind known below⟩
  | @fold _ _ _ whole t _ _ _ _ _ _ kind known enough operand tighter progress _ _ _ others =>
    intro e same
    obtain ⟨folds, rfl, behind⟩ := others e same
    refine ⟨(t.value.plain, whole) :: folds, rfl, ?_⟩
    intro x
    exact .fold kind known enough operand tighter progress (behind (.binary t.value.plain x whole))
  | unknown => intro _ same; cases same
  | rightFails => intro _ same; cases same
  | tighterFails => intro _ same; cases same
  | _ => intro _ _; trivial

end Descends

theorem operations_eq_ok_iff {p q : Parser} {least : Int} {left e : Node} :
    p.operations least left = (.ok e, q) ↔ ∃ taken rest, p.remaining = taken ++ rest ∧
      Descends p.table (.operations least left) p.remaining (.ok e) rest ∧
        q = ⟨p.tokens, p.position + taken.length, p.table⟩ := by
  simp only [descends_iff]
  exact Parser.read_eq_iff

/-- Where the operators behind an operand are read, the tokens that are taken are operators of at
least the power given, each with its right operand; the next token, if it is an operator, has a
smaller one. They are folded onto the operand as it stands, and alike onto any other. -/
theorem operations_fold (p q : Parser) (least : Int) (left e : Node)
    (found : p.operations least left = (.ok e, q)) :
    ∃ (taken rest : List Token) (folds : List (String × Node)),
      p.remaining = taken ++ rest ∧ q = ⟨p.tokens, p.position + taken.length, p.table⟩ ∧
      DerivesOperations p.table least taken ∧
      (∀ t ∈ rest.head?, t.kind = .operator →
        ∃ power : Nat, p.table.powerOf? t.value.plain = some power ∧ (power : Int) < least) ∧
      e = foldOnto left folds ∧ ∀ x, p.operations least x = (.ok (foldOnto x folds), q) := by
  obtain ⟨taken, rest, same, descent, reached⟩ := operations_eq_ok_iff.mp found
  obtain ⟨taken', same', operations⟩ := descent.derived e rfl
  obtain rfl : taken' = taken := List.append_cancel_right (same'.symm.trans same)
  obtain ⟨folds, tree, others⟩ := descent.left_opaque e rfl
  refine ⟨taken', rest, folds, same, reached, operations, descent.stops e rfl, tree, ?_⟩
  intro x
  exact operations_eq_ok_iff.mpr ⟨taken', rest, same, others x, reached⟩

theorem operations_fold_product :
    let times : Token := ⟨.operator, .text "*", .nowhere⟩
    let plus : Token := ⟨.operator, .text "+", .nowhere⟩
    let c : Token := ⟨.name, .text "c", .nowhere⟩
    let d : Token := ⟨.name, .text "d", .nowhere⟩
    let left := Node.binary "-" (.reference "a") (.reference "b")
    let p := Parser.mk [times, c, plus, d] 0 .default
    let q := Parser.mk [times, c, plus, d] 2 .default
    p.operations 40 left = (.ok (.binary "*" left (.reference "c")), q) ∧
      ∃ (taken rest : List Token) (folds : List (String × Node)),
        [times, c, plus, d] = taken ++ rest ∧ q = ⟨p.tokens, p.position + taken.length, .default⟩ ∧
        DerivesOperations .default 40 taken ∧
        (∀ t ∈ rest.head?, t.kind = .operator →
          ∃ power : Nat, OperatorTable.default.powerOf? t.value.plain = some power ∧
            (power : Int) < 40) ∧
        .binary "*" left (.reference "c") = foldOnto left folds ∧
        ∀ x, p.operations 40 x = (.ok (foldOnto x folds), q) := by
  intro times plus c d left p q
  have found : p.operations 40 left = (.ok (.binary "*" left (.reference "c")), q) := rfl
  exact ⟨found, operations_fold p q 40 left _ found⟩

end Formulary
