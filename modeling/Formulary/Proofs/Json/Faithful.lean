import Formulary.Proofs.Json.Written
import Formulary.Proofs.Print.Writable

/-!
The JSON text of a program stands for the records of its items, however it is laid out, and the
records are those of no other program. So a program can be told from its JSON text.
-/
namespace Formulary

namespace Node

variable {record : Json}

theorem record_literal {x : Binary64} : (literal x).record? = some record ↔
    record = .object [("kind", .text "literal"), ("value", .number x)] := by
  rw [record?, Option.some.injEq, eq_comm]

theorem record_reference {name : String} : (reference name).record? = some record ↔
    record = .object [("kind", .text "variable"), ("name", .text name)] := by
  rw [record?, Option.some.injEq, eq_comm]

theorem record_binary {op : String} {left right : Node} :
    (binary op left right).record? = some record ↔ ∃ first second, left.record? = some first ∧
      right.record? = some second ∧ record = .object [("kind", .text "binary"), ("op", .text op),
        ("left", first), ("right", second)] := by
  simp [record?, Option.bind_eq_some_iff, eq_comm (b := record)]

theorem record_call {callee : String} {args : List Node} :
    (call callee args).record? = some record ↔ ∃ records, records? args = some records ∧
      record = .object [("kind", .text "call"), ("callee", .text callee),
        ("args", .array records)] := by
  simp [record?, Option.bind_eq_some_iff, eq_comm (b := record)]

theorem record_declaration {signature : Node} :
    (declaration signature).record? = some record ↔ ∃ inner, signature.record? = some inner ∧
      record = .object [("kind", .text "extern"), ("prototype", inner)] := by
  simp [record?, Option.bind_eq_some_iff, eq_comm (b := record)]

theorem record_definition {signature body : Node} :
    (definition signature body).record? = some record ↔ ∃ first second,
      signature.record? = some first ∧ body.record? = some second ∧
        record = .object [("kind", .text "function"), ("prototype", first), ("body", second)] := by
  simp [record?, Option.bind_eq_some_iff, eq_comm (b := record)]

theorem records_cons {a : Node} {as : List Node} {records : List Json} :
    records? (a :: as) = some records ↔ ∃ first others, a.record? = some first ∧
      records? as = some others ∧ records = first :: others := by
  simp [records?, Option.bind_eq_some_iff, eq_comm (b := records)]

mutual

/-- Expressions with the same record are equal. -/
theorem record_injective : ∀ (e f : Node) {record : Json}, e.isConcrete = true →
    f.isConcrete = true → e.record? = some record → f.record? = some record → e = f
  | .literal x, f, record, own, concrete, made, made' => by
    obtain rfl := record_literal.mp made
    cases f with
    | literal => simpa [record_literal] using made'
    | reference | binary | call => simp [record_reference, record_binary, record_call] at made'
    | _ => cases concrete
  | .reference name, f, record, own, concrete, made, made' => by
    obtain rfl := record_reference.mp made
    cases f with
    | reference => simpa [record_reference] using made'
    | literal | binary | call => simp [record_literal, record_binary, record_call] at made'
    | _ => cases concrete
  | .binary op left right, f, record, own, concrete, made, made' => by
    obtain ⟨first, second, leftMade, rightMade, rfl⟩ := record_binary.mp made
    cases f with
    | binary op' left' right' =>
      obtain ⟨first', second', leftMade', rightMade', same⟩ := record_binary.mp made'
      obtain ⟨rfl, rfl, rfl⟩ : op = op' ∧ first = first' ∧ second = second' := by simpa using same
      simp only [isConcrete, Bool.and_eq_true] at own concrete
      rw [record_injective left left' own.1 concrete.1 leftMade leftMade',
        record_injective right right' own.2 concrete.2 rightMade rightMade']
    | literal | reference | call =>
      simp [record_literal, record_reference, record_call] at made'
    | _ => cases concrete
  | .call callee args, f, record, own, concrete, made, made' => by
    obtain ⟨records, argsMade, rfl⟩ := record_call.mp made
    cases f with
    | call callee' args' =>
      obtain ⟨records', argsMade', same⟩ := record_call.mp made'
      obtain ⟨rfl, rfl⟩ : callee = callee' ∧ records = records' := by simpa using same
      rw [records_injective args args' own concrete argsMade argsMade']
    | literal | reference | binary =>
      simp [record_literal, record_reference, record_binary] at made'
    | _ => cases concrete

theorem records_injective : ∀ (args args' : List Node) {records : List Json},
    allConcrete args = true → allConcrete args' = true → records? args = some records →
      records? args' = some records → args = args'
  | [], args', records, _, _, made, made' => by
    obtain rfl := Option.some.inj made
    cases args' with
    | nil => rfl
    | cons => simp [records_cons] at made'
  | a :: as, args', records, own, concrete, made, made' => by
    obtain ⟨first, others, firstMade, othersMade, rfl⟩ := records_cons.mp made
    cases args' with
    | nil => cases made'
    | cons a' as' =>
      obtain ⟨first', others', firstMade', othersMade', same⟩ := records_cons.mp made'
      obtain ⟨rfl, rfl⟩ := List.cons.inj same
      simp only [allConcrete, Bool.and_eq_true] at own concrete
      rw [record_injective a a' own.1 concrete.1 firstMade firstMade',
        records_injective as as' own.2 concrete.2 othersMade othersMade']

end

theorem prototype_injective {p q : Prototype} (same : p.record = q.record) : p = q := by
  obtain ⟨name, params⟩ := p
  obtain ⟨other, others⟩ := q
  have texts : Function.Injective Json.text := fun _ _ => Json.text.inj
  obtain ⟨rfl, equal⟩ : name = other ∧ params.map Json.text = others.map Json.text := by
    simpa [Prototype.record] using same
  rw [texts.list_map equal]

/-- Items with the same record are equal. -/
theorem recordItem_injective {node other : Node} (own : node.isConcreteItem = true)
    (concrete : other.isConcreteItem = true) (made : node.record? = some record)
    (made' : other.record? = some record) : node = other := by
  rcases isConcreteItem_cases own with ⟨p, rfl⟩ | ⟨p, e, rfl, inside⟩
  · obtain ⟨_, ⟨⟩, rfl⟩ := record_declaration.mp made
    rcases isConcreteItem_cases concrete with ⟨q, rfl⟩ | ⟨q, f, rfl, _⟩
    · obtain ⟨_, ⟨⟩, same⟩ := record_declaration.mp made'
      have signature : p.record = q.record := by simpa using same
      rw [prototype_injective signature]
    · simp [record_definition] at made'
  · obtain ⟨_, inner, ⟨⟩, bodyMade, rfl⟩ := record_definition.mp made
    rcases isConcreteItem_cases concrete with ⟨q, rfl⟩ | ⟨q, f, rfl, inside'⟩
    · simp [record_declaration] at made'
    · obtain ⟨_, inner', ⟨⟩, bodyMade', same⟩ := record_definition.mp made'
      obtain ⟨signature, rfl⟩ : p.record = q.record ∧ inner = inner' := by simpa using same
      rw [prototype_injective signature, record_injective e f inside inside' bodyMade bodyMade']

theorem program_injective {nodes others : List Node} {records : List Json}
    (own : ∀ node ∈ nodes, node.isConcreteItem = true)
    (concrete : ∀ node ∈ others, node.isConcreteItem = true)
    (made : records? nodes = some records) (made' : records? others = some records) :
    nodes = others := by
  induction nodes generalizing others records with
  | nil =>
    obtain rfl := Option.some.inj made
    cases others with
    | nil => rfl
    | cons => simp [records_cons] at made'
  | cons node nodes ih =>
    obtain ⟨first, rest, firstMade, restMade, rfl⟩ := records_cons.mp made
    cases others with
    | nil => cases made'
    | cons other others =>
      obtain ⟨_, _, firstMade', restMade', same⟩ := records_cons.mp made'
      obtain ⟨rfl, rfl⟩ := List.cons.inj same
      obtain ⟨here, later⟩ := List.forall_mem_cons.mp own
      obtain ⟨here', later'⟩ := List.forall_mem_cons.mp concrete
      rw [recordItem_injective here here' firstMade firstMade', ih later later' restMade restMade']

theorem map_record_of_records {nodes : List Node} {records : List Json}
    (made : records? nodes = some records) : nodes.map record? = records.map some := by
  induction nodes generalizing records with
  | nil =>
    obtain rfl := Option.some.inj made
    rfl
  | cons node nodes ih =>
    obtain ⟨first, rest, firstMade, restMade, rfl⟩ := records_cons.mp made
    rw [List.map_cons, List.map_cons, firstMade, ih restMade]

/-- A program of items as parsing makes them, in which every number is finite. -/
structure IsFiniteProgram (nodes : List Node) : Prop where
  concrete : ∀ node ∈ nodes, node.isConcreteItem = true
  finite : ∀ x ∈ nodes.flatMap literals, x.isFinite = true

end Node

namespace Emitter

/-- What an emitter has after it has emitted the items of a program, in order, as a text. -/
def output {κ : Type} (e : Emitter κ) (start : κ) (nodes : List Node) :
    Except TranspileFault String :=
  match e.emitAll nodes start with
  | (.ok (), kept) => e.render kept
  | (.error fault, _) => .error fault

/-- The records of a finite program are all that its JSON text stands for. -/
theorem denotes_output {nodes : List Node} (program : Node.IsFiniteProgram nodes) :
    ∃ records, Node.records? nodes = some records ∧ ∀ indent : Option Int, ∃ text,
      (json indent).output [] nodes = .ok text ∧ IsAscii text.toList ∧
        Json.Denotes text.toList (Json.array records).toValue := by
  obtain ⟨records, made, numbers⟩ := Node.records_of_program program.concrete
  have writable : (Json.array records).unwritable? = none := by
    rw [Json.unwritable?, numbers, List.find?_eq_none]
    intro x member
    simp [program.finite x member]
  refine ⟨records, made, fun indent => ?_⟩
  obtain ⟨text, written, ascii, denotes⟩ := Json.denotes_write writable indent
  refine ⟨text, ?_, ascii, denotes⟩
  have rendered : (json indent).render records = .ok text := by
    change (Json.write indent (.array records)).mapError TranspileFault.json = .ok text
    rw [written]
    rfl
  simp only [output, emitAll_records program.concrete made, List.nil_append, rendered]

/-- The JSON text of a finite program is ASCII, and with every indent it stands for the records of
the items in order and for nothing else. No other such program has the same text. -/
theorem json_faithful (nodes : List Node) (program : Node.IsFiniteProgram nodes) :
    (∃ records, nodes.map Node.record? = records.map some ∧ ∀ indent : Option Int, ∃ text,
      (json indent).output [] nodes = .ok text ∧ (∀ c ∈ text.toList, c.toNat < 128) ∧
        ∀ value, Json.Denotes text.toList value ↔ value = (Json.array records).toValue) ∧
    ∀ others, Node.IsFiniteProgram others → ∀ indent indent' : Option Int,
      (json indent).output [] nodes = (json indent').output [] others → nodes = others := by
  obtain ⟨records, made, outputs⟩ := denotes_output program
  constructor
  · refine ⟨records, Node.map_record_of_records made, fun indent => ?_⟩
    obtain ⟨text, emitted, ascii, denotes⟩ := outputs indent
    refine ⟨text, emitted, ascii, fun value => ⟨fun other => ?_, ?_⟩⟩
    · exact Json.denotes_unique other denotes
    · rintro rfl
      exact denotes
  · intro others program' indent indent' same
    obtain ⟨records', made', outputs'⟩ := denotes_output program'
    obtain ⟨text, emitted, _, denotes⟩ := outputs indent
    obtain ⟨text', emitted', _, denotes'⟩ := outputs' indent'
    rw [emitted, emitted'] at same
    obtain rfl := Except.ok.inj same
    have values := Json.toValue_injective _ _ (Json.denotes_unique denotes denotes')
    obtain rfl := Json.array.inj values
    exact Node.program_injective program.concrete program'.concrete made made'

/-- A name beyond the first plane, an empty list of arguments and a negative zero. -/
theorem json_faithful_emoji :
    let nodes : List Node := [.declaration (.prototype ⟨"f\n\"", []⟩),
      .definition (.prototype ⟨"😀", ["x"]⟩)
        (.binary "\\" (.call "f" []) (.literal (.finite true ⟨0, by decide⟩)))]
    Node.IsFiniteProgram nodes ∧
      (∃ records, nodes.map Node.record? = records.map some ∧ ∀ indent : Option Int, ∃ text,
        (json indent).output [] nodes = .ok text ∧ (∀ c ∈ text.toList, c.toNat < 128) ∧
          ∀ value, Json.Denotes text.toList value ↔ value = (Json.array records).toValue) ∧
      ∀ others, Node.IsFiniteProgram others → ∀ indent indent' : Option Int,
        (json indent).output [] nodes = (json indent').output [] others → nodes = others := by
  intro nodes
  have program : Node.IsFiniteProgram nodes := ⟨by decide, by decide⟩
  exact ⟨program, json_faithful nodes program⟩

end Emitter

end Formulary
