import Formulary.Command.Job
import Formulary.Proofs.Json.Faithful
import Formulary.Proofs.Node.Displayed

/-!
Nodes that are alike. Equality of nodes, their displays and their records tell the same nodes
apart, apart from numbers that equality itself treats as special. So a listing of displays
determines every node in it.
-/
namespace Formulary

/-! ## Equality -/

/-- Numbers equal to themselves and to no other: all but NaN and the negative zero. -/
def Binary64.isDistinct : Binary64 → Bool
  | .nan => false
  | .infinite _ => true
  | .finite negative code => !negative || code.val != 0

theorem Binary64.equals_iff {x y : Binary64} (own : x.isDistinct = true)
    (other : y.isDistinct = true) : x.equals y = true ↔ x = y := by
  cases x with
  | nan => cases own
  | infinite negative => cases y <;> simp [equals]
  | finite negative code =>
    cases y with
    | nan => cases other
    | infinite negative' => simp [equals]
    | finite negative' code' =>
      simp only [isDistinct, Bool.or_eq_true, Bool.not_eq_true', bne_iff_ne] at own other
      simp only [equals, Bool.and_eq_true, Bool.or_eq_true, beq_iff_eq, finite.injEq]
      grind

namespace Node

mutual

/-- Whether a node is built of kinds that have a record, with numbers equal to no others. -/
def isDistinct : Node → Bool
  | .literal x => x.isDistinct
  | .reference _ => true
  | .binary _ left right => isDistinct left && isDistinct right
  | .call _ args => allDistinct args
  | .expression => false
  | .prototype _ => true
  | .declaration signature => isDistinct signature
  | .definition signature body => isDistinct signature && isDistinct body
  | .item _ => false

def allDistinct : List Node → Bool
  | [] => true
  | a :: as => isDistinct a && allDistinct as

end

mutual

theorem equals_iff : ∀ a b : Node, a.isDistinct = true → b.isDistinct = true →
    (a.equals b = true ↔ a = b)
  | .literal x, b, own, other => by
    cases b with
    | literal y => simpa [equals] using Binary64.equals_iff own other
    | _ => simp [equals]
  | .reference name, b, _, _ => by cases b <;> simp [equals]
  | .binary op left right, b, own, other => by
    cases b with
    | binary op' left' right' =>
      simp only [isDistinct, Bool.and_eq_true] at own other
      have first := equals_iff left left' own.1 other.1
      have second := equals_iff right right' own.2 other.2
      simp [equals, first, second, and_assoc]
    | _ => simp [equals]
  | .call callee args, b, own, other => by
    cases b with
    | call callee' args' => simp [equals, equalsAll_iff args args' own other]
    | _ => simp [equals]
  | .prototype p, b, _, _ => by cases b <;> simp [equals]
  | .declaration signature, b, own, other => by
    cases b with
    | declaration signature' => simp [equals, equals_iff signature signature' own other]
    | _ => simp [equals]
  | .definition signature body, b, own, other => by
    cases b with
    | definition signature' body' =>
      simp only [isDistinct, Bool.and_eq_true] at own other
      have first := equals_iff signature signature' own.1 other.1
      have second := equals_iff body body' own.2 other.2
      simp [equals, first, second]
    | _ => simp [equals]

theorem equalsAll_iff : ∀ as bs : List Node, allDistinct as = true → allDistinct bs = true →
    (equalsAll as bs = true ↔ as = bs)
  | [], bs, _, _ => by cases bs <;> simp [equalsAll]
  | a :: as, bs, own, other => by
    cases bs with
    | nil => simp [equalsAll]
    | cons b bs =>
      simp only [allDistinct, Bool.and_eq_true] at own other
      simp [equalsAll, equals_iff a b own.1 other.1, equalsAll_iff as bs own.2 other.2]

end

theorem equals_iff_display {a b : Node} (own : a.isDistinct = true) (other : b.isDistinct = true) :
    a.equals b = true ↔ a.display = b.display := by
  rw [equals_iff a b own other]
  exact ⟨congrArg display, display_injective⟩

end Node

/-! ## Records -/

namespace Json

mutual

/-- Equality of records: an object has its fields in any order. -/
def equals : Json → Json → Bool
  | .text s, .text t => s == t
  | .number x, .number y => x.equals y
  | .array items, .array others => equalsItems items others
  | .object fields, .object others =>
    fields.length == others.length && equalsFields fields others
  | _, _ => false

def equalsItems : List Json → List Json → Bool
  | [], [] => true
  | item :: items, other :: others => equals item other && equalsItems items others
  | _, _ => false

/-- Whether the others have each field with an equal value. -/
def equalsFields : List (String × Json) → List (String × Json) → Bool
  | [], _ => true
  | (key, value) :: fields, others =>
    (match others.lookup key with
      | some other => equals value other
      | none => false) && equalsFields fields others

end

theorem equalsItems_texts (texts others : List String) :
    equalsItems (texts.map .text) (others.map .text) = (texts == others) := by
  induction texts generalizing others with
  | nil => cases others <;> rfl
  | cons text texts ih =>
    cases others with
    | nil => rfl
    | cons other others =>
      rw [List.map_cons, List.map_cons, equalsItems, equals, ih]
      rfl

/-- Objects that begin with different kinds are different. -/
theorem equals_of_kind_ne {k k' : String} (apart : k ≠ k') (fields others : List (String × Json)) :
    equals (.object (("kind", .text k) :: fields)) (.object (("kind", .text k') :: others)) =
      false := by
  simp [equals, equalsFields, apart]

end Json

theorem Prototype.equals_record (p q : Prototype) : p.record.equals q.record = (p == q) := by
  obtain ⟨name, params⟩ := p
  obtain ⟨name', params'⟩ := q
  rw [Bool.eq_iff_iff]
  simp [record, Json.equals, Json.equalsFields, List.lookup_cons, Json.equalsItems_texts]

namespace Node

theorem tag_injective {k k' : NodeKind} (same : k.tag = k'.tag) : k = k' := by
  cases k <;> cases k' <;> first
    | rfl
    | exact absurd same (by decide)

theorem record_kind {node : Node} {record : Json} (made : node.record? = some record) :
    ∃ fields, record = .object (("kind", .text node.kind.tag) :: fields) := by
  cases node with
  | literal => exact ⟨_, record_literal.mp made⟩
  | reference => exact ⟨_, record_reference.mp made⟩
  | binary =>
    obtain ⟨_, _, _, _, rfl⟩ := record_binary.mp made
    exact ⟨_, rfl⟩
  | call =>
    obtain ⟨_, _, rfl⟩ := record_call.mp made
    exact ⟨_, rfl⟩
  | prototype p =>
    obtain rfl := Option.some.inj made
    exact ⟨_, rfl⟩
  | declaration =>
    obtain ⟨_, _, rfl⟩ := record_declaration.mp made
    exact ⟨_, rfl⟩
  | definition =>
    obtain ⟨_, _, _, _, rfl⟩ := record_definition.mp made
    exact ⟨_, rfl⟩
  | expression => cases made
  | item => cases made

theorem kind_of_equals {a b : Node} (same : a.equals b = true) : a.kind = b.kind := by
  cases a <;> cases b <;> first
    | rfl
    | cases same

theorem equals_record_of_kind_ne {a b : Node} {r s : Json} (made : a.record? = some r)
    (made' : b.record? = some s) (apart : a.kind ≠ b.kind) : r.equals s = a.equals b := by
  obtain ⟨fields, rfl⟩ := record_kind made
  obtain ⟨others, rfl⟩ := record_kind made'
  have different : a.equals b = false := by
    rw [← Bool.not_eq_true]
    exact fun same => apart (kind_of_equals same)
  rw [different, Json.equals_of_kind_ne (fun tags => apart (tag_injective tags))]

mutual

/-- Records of nodes are equal when the nodes are. -/
theorem equals_record : ∀ (a b : Node) {r s : Json}, a.record? = some r → b.record? = some s →
    r.equals s = a.equals b
  | .literal x, b, r, s, made, made' => by
    cases b with
    | literal y =>
      obtain rfl := record_literal.mp made
      obtain rfl := record_literal.mp made'
      simp [Json.equals, Json.equalsFields, List.lookup_cons, equals]
    | _ => exact equals_record_of_kind_ne made made' nofun
  | .reference name, b, r, s, made, made' => by
    cases b with
    | reference name' =>
      obtain rfl := record_reference.mp made
      obtain rfl := record_reference.mp made'
      simp [Json.equals, Json.equalsFields, List.lookup_cons, equals]
    | _ => exact equals_record_of_kind_ne made made' nofun
  | .binary op left right, b, r, s, made, made' => by
    cases b with
    | binary op' left' right' =>
      obtain ⟨first, second, leftMade, rightMade, rfl⟩ := record_binary.mp made
      obtain ⟨first', second', leftMade', rightMade', rfl⟩ := record_binary.mp made'
      have lefts := equals_record left left' leftMade leftMade'
      have rights := equals_record right right' rightMade rightMade'
      simp [Json.equals, Json.equalsFields, List.lookup_cons, equals, lefts, rights, Bool.and_assoc]
    | _ => exact equals_record_of_kind_ne made made' nofun
  | .call callee args, b, r, s, made, made' => by
    cases b with
    | call callee' args' =>
      obtain ⟨records, argsMade, rfl⟩ := record_call.mp made
      obtain ⟨records', argsMade', rfl⟩ := record_call.mp made'
      have all := equals_records args args' argsMade argsMade'
      simp [Json.equals, Json.equalsFields, List.lookup_cons, equals, all]
    | _ => exact equals_record_of_kind_ne made made' nofun
  | .expression, _, _, _, made, _ => by cases made
  | .prototype p, b, r, s, made, made' => by
    cases b with
    | prototype q =>
      obtain rfl := Option.some.inj made
      obtain rfl := Option.some.inj made'
      rw [p.equals_record q, equals]
    | _ => exact equals_record_of_kind_ne made made' nofun
  | .declaration signature, b, r, s, made, made' => by
    cases b with
    | declaration signature' =>
      obtain ⟨inner, innerMade, rfl⟩ := record_declaration.mp made
      obtain ⟨inner', innerMade', rfl⟩ := record_declaration.mp made'
      have inners := equals_record signature signature' innerMade innerMade'
      simp [Json.equals, Json.equalsFields, List.lookup_cons, equals, inners]
    | _ => exact equals_record_of_kind_ne made made' nofun
  | .definition signature body, b, r, s, made, made' => by
    cases b with
    | definition signature' body' =>
      obtain ⟨first, second, firstMade, secondMade, rfl⟩ := record_definition.mp made
      obtain ⟨first', second', firstMade', secondMade', rfl⟩ := record_definition.mp made'
      have signatures := equals_record signature signature' firstMade firstMade'
      have bodies := equals_record body body' secondMade secondMade'
      simp [Json.equals, Json.equalsFields, List.lookup_cons, equals, signatures, bodies]
    | _ => exact equals_record_of_kind_ne made made' nofun
  | .item _, _, _, _, made, _ => by cases made

theorem equals_records : ∀ (as bs : List Node) {records others : List Json},
    records? as = some records → records? bs = some others →
      Json.equalsItems records others = equalsAll as bs
  | [], bs, records, others, made, made' => by
    obtain rfl := Option.some.inj made
    cases bs with
    | nil =>
      obtain rfl := Option.some.inj made'
      rfl
    | cons b bs =>
      obtain ⟨_, _, _, _, rfl⟩ := records_cons.mp made'
      rfl
  | a :: as, bs, records, others, made, made' => by
    obtain ⟨first, rest, firstMade, restMade, rfl⟩ := records_cons.mp made
    cases bs with
    | nil =>
      obtain rfl := Option.some.inj made'
      rfl
    | cons b bs =>
      obtain ⟨first', rest', firstMade', restMade', rfl⟩ := records_cons.mp made'
      rw [Json.equalsItems, equalsAll, equals_record a b firstMade firstMade',
        equals_records as bs restMade restMade']

end

mutual

theorem record_of_isDistinct : ∀ a : Node, a.isDistinct = true → ∃ record, a.record? = some record
  | .literal x, _ => ⟨_, rfl⟩
  | .reference name, _ => ⟨_, rfl⟩
  | .binary op left right, own => by
    simp only [isDistinct, Bool.and_eq_true] at own
    obtain ⟨first, leftMade⟩ := record_of_isDistinct left own.1
    obtain ⟨second, rightMade⟩ := record_of_isDistinct right own.2
    exact ⟨_, record_binary.mpr ⟨first, second, leftMade, rightMade, rfl⟩⟩
  | .call callee args, own => by
    obtain ⟨records, made⟩ := records_of_allDistinct args own
    exact ⟨_, record_call.mpr ⟨records, made, rfl⟩⟩
  | .prototype p, _ => ⟨_, rfl⟩
  | .declaration signature, own => by
    obtain ⟨inner, made⟩ := record_of_isDistinct signature own
    exact ⟨_, record_declaration.mpr ⟨inner, made, rfl⟩⟩
  | .definition signature body, own => by
    simp only [isDistinct, Bool.and_eq_true] at own
    obtain ⟨first, made⟩ := record_of_isDistinct signature own.1
    obtain ⟨second, bodyMade⟩ := record_of_isDistinct body own.2
    exact ⟨_, record_definition.mpr ⟨first, second, made, bodyMade, rfl⟩⟩

theorem records_of_allDistinct : ∀ as : List Node, allDistinct as = true →
    ∃ records, records? as = some records
  | [], _ => ⟨_, rfl⟩
  | a :: as, own => by
    simp only [allDistinct, Bool.and_eq_true] at own
    obtain ⟨first, made⟩ := record_of_isDistinct a own.1
    obtain ⟨others, othersMade⟩ := records_of_allDistinct as own.2
    exact ⟨_, records_cons.mpr ⟨first, others, made, othersMade, rfl⟩⟩

end

/-- Two nodes are equal when they have the same display, and when their records are equal. A listing
of displays, one on each line, is that of no other nodes. -/
theorem told_apart (a b : Node) (own : a.isDistinct = true) (other : b.isDistinct = true) :
    (a.equals b = true ↔ a.display = b.display) ∧
    (∃ r s, a.record? = some r ∧ b.record? = some s ∧
      (a.equals b = true ↔ r.equals s = true)) ∧
    ∀ nodes others : List Node, (∀ node ∈ nodes, node.isDistinct = true) →
      (∀ node ∈ others, node.isDistinct = true) →
      Job.shown (some "repr") nodes = Job.shown (some "repr") others → nodes = others := by
  refine ⟨equals_iff_display own other, ?_, ?_⟩
  · obtain ⟨r, made⟩ := record_of_isDistinct a own
    obtain ⟨s, made'⟩ := record_of_isDistinct b other
    exact ⟨r, s, made, made', by rw [equals_record a b made made']⟩
  · intro nodes others _ _ same
    exact lines_injective (Except.ok.inj same)

/-- A name with a quote and a comma in it does not pass for two names. -/
theorem told_apart_comma :
    let a : Node := .call "f" [.reference "x'), Variable('y"]
    let b : Node := .call "f" [.reference "x", .reference "y"]
    a.isDistinct = true ∧ b.isDistinct = true ∧ a.display ≠ b.display ∧
      (∃ r s, a.record? = some r ∧ b.record? = some s ∧ r.equals s = false) ∧
      Job.shown (some "repr") [a, b] ≠ Job.shown (some "repr") [b, a] := by
  intro a b
  have different : a.equals b = false := by decide
  obtain ⟨displays, ⟨r, s, made, made', records⟩, listing⟩ := told_apart a b rfl rfl
  refine ⟨rfl, rfl, ?_, ⟨r, s, made, made', ?_⟩, ?_⟩
  · intro same
    exact absurd (displays.mpr same) (by simp [different])
  · rw [← Bool.not_eq_true, ← records, different]
    decide
  · intro same
    have swapped := listing [a, b] [b, a] (by decide) (by decide) same
    simp [a, b] at swapped

end Node

end Formulary
