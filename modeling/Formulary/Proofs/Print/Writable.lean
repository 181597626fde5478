import Formulary.Proofs.Outcome
import Formulary.Proofs.Print.Kept

/-!
What can be written. A node that is built of the kinds that a program has is written unless one of
its numbers has no text. Then the first such number, in reading order, is reported, and nothing
else is.
-/
namespace Formulary

namespace Node

mutual

/-- Whether an expression is built of numbers, names, operations and calls. -/
def isConcrete : Node → Bool
  | .literal _ => true
  | .reference _ => true
  | .binary _ left right => isConcrete left && isConcrete right
  | .call _ args => allConcrete args
  | _ => false

def allConcrete : List Node → Bool
  | [] => true
  | a :: as => isConcrete a && allConcrete as

end

/-- Whether an item has a prototype and, if it has a body, one that is built so. -/
def isConcreteItem : Node → Bool
  | .declaration (.prototype _) => true
  | .definition (.prototype _) body => body.isConcrete
  | _ => false

mutual

/-- The numbers of an item or an expression, in reading order. -/
def literals : Node → List Binary64
  | .literal x => [x]
  | .binary _ left right => literals left ++ literals right
  | .call _ args => literalsAll args
  | .definition _ body => literals body
  | _ => []

def literalsAll : List Node → List Binary64
  | [] => []
  | a :: as => literals a ++ literalsAll as

end

theorem isConcreteItem_cases {node : Node} (concrete : node.isConcreteItem = true) :
    (∃ p : Prototype, node = .declaration (.prototype p)) ∨
      ∃ (p : Prototype) (body : Node), node = .definition (.prototype p) body ∧
        body.isConcrete = true := by
  unfold isConcreteItem at concrete
  split at concrete
  · next p => exact .inl ⟨p, rfl⟩
  · next p body => exact .inr ⟨p, body, rfl, concrete⟩
  · cases concrete

theorem isItem_of_concrete {node : Node} (concrete : node.isConcreteItem = true) :
    node.isItem = true := by
  rcases isConcreteItem_cases concrete with ⟨p, rfl⟩ | ⟨p, body, rfl, _⟩ <;> rfl

end Node

/-! ## Source text -/

/-- Why a number has no source text, if it has none. -/
def Binary64.printFault? (x : Binary64) : Option PrintFault :=
  match x.source with
  | .ok _ => none
  | .error fault => some fault

theorem settles_number (x : Binary64) : Settles x.printFault? x.source := by
  unfold Binary64.printFault?
  cases x.source with
  | ok text => exact ⟨text, rfl⟩
  | error fault => exact rfl

namespace Node

mutual

theorem settles_source : ∀ e : Node, e.isConcrete = true →
    Settles (e.literals.findSome? Binary64.printFault?) e.source
  | .literal x, _ => by simpa [literals, source] using settles_number x
  | .reference name, _ => settles_ok name
  | .binary op left right, concrete => by
    simp only [isConcrete, Bool.and_eq_true] at concrete
    have first := settles_source left concrete.1
    have second := settles_source right concrete.2
    have settles := first.bind fun leftText => second.map fun rightText =>
      enclosed left leftText ++ " " ++ op ++ " " ++ enclosed right rightText
    rw [literals, List.findSome?_append]
    exact settles
  | .call callee args, concrete => by
    have inner := settles_sources args concrete
    exact inner.map fun texts => callee ++ "(" ++ commaJoined texts ++ ")"

theorem settles_sources : ∀ args : List Node, allConcrete args = true →
    Settles ((literalsAll args).findSome? Binary64.printFault?) (sources args)
  | [], _ => settles_ok []
  | a :: as, concrete => by
    simp only [allConcrete, Bool.and_eq_true] at concrete
    have settles := (settles_source a concrete.1).bind fun text =>
      (settles_sources as concrete.2).map (text :: ·)
    rw [literalsAll, List.findSome?_append]
    exact settles

end

end Node

namespace Emitter

variable {κ : Type}

theorem checkItems_concrete {nodes : List Node}
    (concrete : ∀ node ∈ nodes, node.isConcreteItem = true) : checkItems 0 nodes = .ok () :=
  checkItems_of_items 0 fun node member => Node.isItem_of_concrete (concrete node member)

/-- The line of a definition is its body's text, with the signature before it if it has a name. -/
theorem definitionLine_prototype (p : Prototype) (body : Node) :
    definitionLine (.prototype p) body = body.source.map fun text =>
      if p == .anonymous then text ++ ";" else "def " ++ p.source ++ " " ++ text ++ ";" := by
  simp only [definitionLine, Node.isAnonymous]
  cases body.source with
  | error fault => rfl
  | ok text => cases p == .anonymous <;> rfl

theorem settles_emitNode {node : Node} (concrete : node.isConcreteItem = true)
    (kept : List String) :
    Settles ((node.literals.findSome? Binary64.printFault?).map TranspileFault.print)
      (source.emitNode node kept) := by
  rcases Node.isConcreteItem_cases concrete with ⟨p, rfl⟩ | ⟨p, body, rfl, inside⟩
  · exact settles_ok _
  · have line : Settles (body.literals.findSome? Binary64.printFault?)
        (definitionLine (.prototype p) body) := by
      rw [definitionLine_prototype]
      exact (Node.settles_source body inside).map _
    exact (line.mapError TranspileFault.print).map (kept ++ [·])

/-- The first number without text ends the writing of a program. -/
theorem settles_transpile {nodes : List Node}
    (concrete : ∀ node ∈ nodes, node.isConcreteItem = true) :
    Settles (((nodes.flatMap Node.literals).findSome? Binary64.printFault?).map .print)
      (Target.source.transpile nodes) := by
  have all (kept : List String) :
      Settles (((nodes.flatMap Node.literals).findSome? Binary64.printFault?).map .print)
        (source.emitAll nodes kept).1 := by
    induction nodes generalizing kept with
    | nil => exact settles_ok ()
    | cons node nodes ih =>
      obtain ⟨first, rest⟩ := List.forall_mem_cons.mp concrete
      have settles := settles_emitNode first kept
      rw [List.flatMap_cons, List.findSome?_append, Option.map_or]
      generalize node.literals.findSome? Binary64.printFault? = fault? at settles ⊢
      cases fault? with
      | some fault =>
        have stopped : source.emitNode node kept = .error (.print fault) := settles
        simp only [emitAll, stopped]
        exact rfl
      | none =>
        obtain ⟨later, emitted⟩ := settles
        simp only [emitAll, emitted]
        exact ih rest later
  have settles := all []
  simp only [Target.transpile, Emitter.transpile, checkItems_concrete concrete]
  generalize source.emitAll nodes [] = outcome at settles ⊢
  obtain ⟨result, kept⟩ := outcome
  cases result with
  | ok _ =>
    exact settles.map fun _ => String.intercalate "\n" kept
  | error fault => exact settles.map fun _ => ""

end Emitter

/-! ## Records -/

namespace Node

mutual

/-- The record of an expression, and the first number in it that has no JSON text. -/
theorem record_of_concrete : ∀ e : Node, e.isConcrete = true → ∃ record, e.record? = some record ∧
    record.unwritable? = e.literals.find? (!·.isFinite)
  | .literal x, _ => by
    refine ⟨_, rfl, ?_⟩
    cases finite : x.isFinite <;>
      simp [Json.unwritable?, Json.unwritableField?, literals, finite]
  | .reference name, _ => ⟨_, rfl, rfl⟩
  | .binary op left right, concrete => by
    simp only [isConcrete, Bool.and_eq_true] at concrete
    obtain ⟨first, leftRecord, leftNumbers⟩ := record_of_concrete left concrete.1
    obtain ⟨second, rightRecord, rightNumbers⟩ := record_of_concrete right concrete.2
    refine ⟨.object [("kind", .text "binary"), ("op", .text op), ("left", first),
      ("right", second)], ?_, ?_⟩
    · simp only [record?, leftRecord, rightRecord]
      rfl
    · simp [Json.unwritable?, Json.unwritableField?, literals, leftNumbers, rightNumbers]
  | .call callee args, concrete => by
    obtain ⟨records, made, numbers⟩ := records_of_concrete args concrete
    refine ⟨.object [("kind", .text "call"), ("callee", .text callee), ("args", .array records)],
      ?_, ?_⟩
    · simp only [record?, made]
      rfl
    · simp [Json.unwritable?, Json.unwritableField?, literals, numbers]

theorem records_of_concrete : ∀ args : List Node, allConcrete args = true →
    ∃ records, records? args = some records ∧
      Json.unwritableItem? records = (literalsAll args).find? (!·.isFinite)
  | [], _ => ⟨[], rfl, rfl⟩
  | a :: as, concrete => by
    simp only [allConcrete, Bool.and_eq_true] at concrete
    obtain ⟨first, made, numbers⟩ := record_of_concrete a concrete.1
    obtain ⟨rest, others, otherNumbers⟩ := records_of_concrete as concrete.2
    refine ⟨first :: rest, ?_, ?_⟩
    · simp only [records?, made, others]
      rfl
    · simp [Json.unwritableItem?, literalsAll, numbers, otherNumbers]

end

theorem unwritable_prototype (p : Prototype) : p.record.unwritable? = none := by
  have texts (params : List String) : Json.unwritableItem? (params.map .text) = none := by
    induction params with
    | nil => rfl
    | cons param params ih => simp [Json.unwritableItem?, Json.unwritable?, ih]
  simp [Prototype.record, Json.unwritable?, Json.unwritableField?, texts]

theorem record_of_concreteItem {node : Node} (concrete : node.isConcreteItem = true) :
    ∃ record, node.record? = some record ∧
      record.unwritable? = node.literals.find? (!·.isFinite) := by
  rcases isConcreteItem_cases concrete with ⟨p, rfl⟩ | ⟨p, body, rfl, inside⟩
  · refine ⟨_, rfl, ?_⟩
    simp [Json.unwritable?, Json.unwritableField?, unwritable_prototype, literals]
  · obtain ⟨record, made, numbers⟩ := record_of_concrete body inside
    refine ⟨.object [("kind", .text "function"), ("prototype", p.record), ("body", record)], ?_, ?_⟩
    · simp only [record?, made]
      rfl
    · simp [Json.unwritable?, Json.unwritableField?, unwritable_prototype, literals, numbers]

theorem records_of_program {nodes : List Node}
    (concrete : ∀ node ∈ nodes, node.isConcreteItem = true) : ∃ records,
      records? nodes = some records ∧
        Json.unwritableItem? records = (nodes.flatMap literals).find? (!·.isFinite) := by
  induction nodes with
  | nil => exact ⟨[], rfl, rfl⟩
  | cons node nodes ih =>
    obtain ⟨first, rest⟩ := List.forall_mem_cons.mp concrete
    obtain ⟨record, made, numbers⟩ := record_of_concreteItem first
    obtain ⟨records, others, otherNumbers⟩ := ih rest
    refine ⟨record :: records, ?_, ?_⟩
    · simp only [records?, made, others]
      rfl
    · simp [Json.unwritableItem?, numbers, otherNumbers]

end Node

namespace Emitter

/-- The records of a program are kept in order. -/
theorem emitAll_records {nodes : List Node}
    (concrete : ∀ node ∈ nodes, node.isConcreteItem = true) {records : List Json}
    (made : Node.records? nodes = some records) (indent : Option Int) (kept : List Json) :
    (json indent).emitAll nodes kept = (.ok (), kept ++ records) := by
  refine emitAll_of_makeAll ?_ kept
  induction nodes generalizing records with
  | nil =>
    obtain rfl := Option.some.inj made
    exact .nil
  | cons node nodes ih =>
    obtain ⟨first, rest⟩ := List.forall_mem_cons.mp concrete
    obtain ⟨record, own, _⟩ := Node.record_of_concreteItem first
    obtain ⟨others, later, _⟩ := Node.records_of_program rest
    obtain rfl : record :: others = records := by simpa [Node.records?, own, later] using made
    have makes : (json indent).Makes node (.ok record) := by
      intro kept
      rcases Node.isConcreteItem_cases first with ⟨p, rfl⟩ | ⟨p, body, rfl, _⟩ <;>
        simp only [emitNode, json, addRecord, own] <;> rfl
    exact .cons makes (ih rest later)

theorem transpile_records {nodes : List Node}
    (concrete : ∀ node ∈ nodes, node.isConcreteItem = true) {records : List Json}
    (made : Node.records? nodes = some records) (indent : Option Int) :
    ((json indent).transpile nodes []).1 = (Json.write indent (.array records)).mapError .json := by
  simp only [transpile, checkItems_concrete concrete, emitAll_records concrete made]
  rfl

end Emitter

end Formulary
