import Formulary.Transpile
import Mathlib.Data.List.Forall2

/-!
What an emitter keeps. An item adds one entry, whatever is kept already, or fails and adds none. So
a run of calls, some of which may fail, adds the entries of each call behind all that was kept.
-/
namespace Formulary

namespace Emitter

variable {κ α : Type}

/-! ## Items only -/

theorem checkItems_of_items (index : Nat) {nodes : List Node}
    (items : ∀ node ∈ nodes, node.isItem = true) : checkItems index nodes = .ok () := by
  induction nodes generalizing index with
  | nil => rfl
  | cons node nodes ih =>
    obtain ⟨first, rest⟩ := List.forall_mem_cons.mp items
    simp only [checkItems, first, if_true, ih (index + 1) rest]

theorem checkItems_of_stray (index : Nat) {front rest : List Node} {node : Node}
    (items : ∀ n ∈ front, n.isItem = true) (stray : node.isItem = false) :
    checkItems index (front ++ node :: rest) =
      .error (.notAnItem (index + front.length) node.kind) := by
  induction front generalizing index with
  | nil => simp [checkItems, stray]
  | cons first front ih =>
    obtain ⟨item, others⟩ := List.forall_mem_cons.mp items
    simp only [List.cons_append, checkItems, item, if_true, ih (index + 1) others, List.length_cons]
    rw [Nat.add_assoc, Nat.add_comm 1]

theorem items_or_stray (nodes : List Node) :
    (∀ node ∈ nodes, node.isItem = true) ∨ ∃ front node rest, nodes = front ++ node :: rest ∧
      (∀ n ∈ front, n.isItem = true) ∧ node.isItem = false := by
  cases found : nodes.find? (!·.isItem) with
  | none => exact .inl (by simpa using found)
  | some node =>
    obtain ⟨stray, front, rest, rfl, items⟩ := List.find?_eq_some_iff_append.mp found
    exact .inr ⟨front, node, rest, rfl, by simpa using items, by simpa using stray⟩

/-! ## Entries of items -/

/-- What a node adds wherever it is emitted: an entry behind all others, or a fault and nothing. -/
def Makes (e : Emitter (List α)) (node : Node) (made : Except TranspileFault α) : Prop :=
  ∀ kept, e.emitNode node kept = made.map (kept ++ [·])

/-- The nodes make entries, one each. -/
def MakeAll (e : Emitter (List α)) : List Node → List α → Prop :=
  List.Forall₂ fun node entry => e.Makes node (.ok entry)

theorem emitAll_append {e : Emitter (List α)} {front : List Node} {entries : List α}
    (makes : e.MakeAll front entries) (rest : List Node) (kept : List α) :
    e.emitAll (front ++ rest) kept = e.emitAll rest (kept ++ entries) := by
  induction makes generalizing kept with
  | nil => simp
  | @cons node entry front entries first _ ih =>
    simp only [List.cons_append, emitAll, first kept, Except.map, ih]
    simp

theorem emitAll_of_makeAll {e : Emitter (List α)} {nodes : List Node} {entries : List α}
    (makes : e.MakeAll nodes entries) (kept : List α) :
    e.emitAll nodes kept = (.ok (), kept ++ entries) := by
  simpa [emitAll] using emitAll_append makes [] kept

/-- One of the emitters for the targets; the indent of JSON is free. -/
inductive IsBuiltIn : {α : Type} → Emitter (List α) → Prop where
  | source : IsBuiltIn source
  | json (indent : Option Int) : IsBuiltIn (json indent)

theorem addRecord_eq (node : Node) :
    ∃ made : Except TranspileFault Json, ∀ kept,
      addRecord node kept = made.map (kept ++ [·]) := by
  cases made : node.record? with
  | none => exact ⟨.error .noRecord, fun kept => by rw [addRecord, made]; rfl⟩
  | some record => exact ⟨.ok record, fun kept => by rw [addRecord, made]; rfl⟩

theorem makes_of_isItem {e : Emitter (List α)} (builtIn : e.IsBuiltIn) {node : Node}
    (item : node.isItem = true) : ∃ made, e.Makes node made := by
  cases node with
  | declaration signature =>
    cases builtIn with
    | source => exact ⟨(declarationLine signature).mapError .print, fun _ => rfl⟩
    | json indent => exact addRecord_eq (.declaration signature)
  | definition signature body =>
    cases builtIn with
    | source => exact ⟨(definitionLine signature body).mapError .print, fun _ => rfl⟩
    | json indent => exact addRecord_eq (.definition signature body)
  | item signature =>
    have refused : e.emit? (.item signature) = none := by cases builtIn <;> rfl
    cases named : (Node.item signature).name with
    | ok name =>
      exact ⟨.error (.unsupported e.title .item name), fun kept => by
        simp only [emitNode, refused, named]; rfl⟩
    | error part =>
      exact ⟨.error (.print (.missing part)), fun kept => by
        simp only [emitNode, refused, named]; rfl⟩
  | _ => cases item

theorem makeAll_or_fault {e : Emitter (List α)} (builtIn : e.IsBuiltIn) {nodes : List Node}
    (items : ∀ node ∈ nodes, node.isItem = true) :
    (∃ entries, e.MakeAll nodes entries) ∨
      ∃ front node rest entries fault, nodes = front ++ node :: rest ∧ e.MakeAll front entries ∧
        e.Makes node (.error fault) := by
  induction nodes with
  | nil => exact .inl ⟨[], .nil⟩
  | cons node nodes ih =>
    obtain ⟨item, others⟩ := List.forall_mem_cons.mp items
    obtain ⟨made, makes⟩ := makes_of_isItem builtIn item
    cases made with
    | error fault => exact .inr ⟨[], node, nodes, [], fault, rfl, .nil, makes⟩
    | ok entry =>
      rcases ih others with ⟨entries, all⟩ | ⟨front, bad, rest, entries, fault, rfl, all, fails⟩
      · exact .inl ⟨entry :: entries, .cons makes all⟩
      · exact .inr ⟨node :: front, bad, rest, entry :: entries, fault, rfl, .cons makes all, fails⟩

/-! ## Calls -/

/-- What a caller may ask of an emitter. -/
inductive Call where
  | transpile (nodes : List Node)
  | emitNode (node : Node)

/-- Lists may hold nodes of any kind; by itself only an item is emitted. -/
def Call.IsProper : Call → Prop
  | .transpile _ => True
  | .emitNode node => node.isItem = true

/-- Carries out a call. Only a program that is transpiled has a text in the end. -/
def perform (e : Emitter κ) (kept : κ) : Call → Except TranspileFault (Option String) × κ
  | .transpile nodes => ((e.transpile nodes kept).1.map some, (e.transpile nodes kept).2)
  | .emitNode node => match e.emitNode node kept with
    | .ok kept => (.ok none, kept)
    | .error fault => (.error fault, kept)

/-- What is kept after a run of calls, whether they succeed or fail. -/
def after (e : Emitter κ) (kept : κ) (calls : List Call) : κ :=
  calls.foldl (fun kept call => (e.perform kept call).2) kept

/-- What a fresh emitter keeps of a node. -/
def entries (e : Emitter (List α)) (node : Node) : List α :=
  match e.emitNode node [] with
  | .ok made => made
  | .error _ => []

/-- Whether a fresh emitter emits a node. -/
def emits (e : Emitter (List α)) (node : Node) : Bool := (e.emitNode node []).isOk

/-- The entries of a call. A list with a node that is no item has none; any other list has those of
the nodes before the first that cannot be emitted. -/
def adds (e : Emitter (List α)) : Call → List α
  | .transpile nodes =>
    if nodes.all Node.isItem then (nodes.takeWhile e.emits).flatMap e.entries else []
  | .emitNode node => e.entries node

/-- How a call ends where something is kept already, and what it adds to that. -/
inductive Does (e : Emitter (List α)) (kept : List α) :
    Call → Except TranspileFault (Option String) → List α → Prop where
  | stray {front rest : List Node} {node : Node} (items : ∀ n ∈ front, n.isItem = true)
      (stray : node.isItem = false) :
      Does e kept (.transpile (front ++ node :: rest))
        (.error (.notAnItem front.length node.kind)) []
  | stopped {front rest : List Node} {node : Node} {entries : List α} {fault : TranspileFault}
      (items : ∀ n ∈ front ++ node :: rest, n.isItem = true)
      (made : List.Forall₂ (fun n entry => e.emitNode n [] = .ok [entry]) front entries)
      (fails : e.emitNode node [] = .error fault) :
      Does e kept (.transpile (front ++ node :: rest)) (.error fault) entries
  | rendered {nodes : List Node} {entries : List α} (items : ∀ n ∈ nodes, n.isItem = true)
      (made : List.Forall₂ (fun n entry => e.emitNode n [] = .ok [entry]) nodes entries) :
      Does e kept (.transpile nodes) ((e.render (kept ++ entries)).map some) entries
  | emitted {node : Node} {entry : α} (made : e.emitNode node [] = .ok [entry]) :
      Does e kept (.emitNode node) (.ok none) [entry]
  | refused {node : Node} {fault : TranspileFault} (fails : e.emitNode node [] = .error fault) :
      Does e kept (.emitNode node) (.error fault) []

/-! ## One call -/

section

variable {e : Emitter (List α)}

theorem fresh_of_makeAll {nodes : List Node} {made : List α} (makes : e.MakeAll nodes made) :
    List.Forall₂ (fun n entry => e.emitNode n [] = .ok [entry]) nodes made :=
  makes.imp fun _ _ makes => makes []

/-- A list of items is emitted up to the first fault. -/
theorem adds_transpile {front rest : List Node} {made : List α}
    (items : ∀ n ∈ front ++ rest, n.isItem = true) (makes : e.MakeAll front made)
    (ends : ∀ node ∈ rest.head?, ∃ fault, e.emitNode node [] = .error fault) :
    e.adds (.transpile (front ++ rest)) = made := by
  have all : (front ++ rest).all Node.isItem = true := List.all_eq_true.mpr items
  rw [adds, if_pos all]
  clear items all
  induction makes with
  | nil =>
    cases rest with
    | nil => rfl
    | cons node rest =>
      obtain ⟨fault, fails⟩ := ends node rfl
      have no : e.emits node = false := by rw [emits, fails]; rfl
      rw [List.nil_append, List.takeWhile_cons_of_neg (by simp [no])]
      rfl
  | @cons node entry front made first _ ih =>
    have own : e.emitNode node [] = .ok [entry] := first []
    have yes : e.emits node = true := by rw [emits, own]; rfl
    have kept : e.entries node = [entry] := by rw [entries, own]
    rw [List.cons_append, List.takeWhile_cons_of_pos yes, List.flatMap_cons, kept, ih]
    rfl

theorem perform_transpile (builtIn : e.IsBuiltIn) (kept : List α) (nodes : List Node) :
    e.Does kept (.transpile nodes) (e.perform kept (.transpile nodes)).1
        (e.adds (.transpile nodes)) ∧
      (e.perform kept (.transpile nodes)).2 = kept ++ e.adds (.transpile nodes) := by
  rcases items_or_stray nodes with items | ⟨front, node, rest, rfl, items, stray⟩
  · have checked := checkItems_of_items 0 items
    rcases makeAll_or_fault builtIn items with
      ⟨made, makes⟩ | ⟨front, node, rest, made, fault, rfl, makes, fails⟩
    · have added : e.adds (.transpile nodes) = made := by
        have items' : ∀ n ∈ nodes ++ [], n.isItem = true := by simpa using items
        simpa using adds_transpile items' makes (by simp)
      simp only [perform, transpile, checked, emitAll_of_makeAll makes, added]
      exact ⟨.rendered items (fresh_of_makeAll makes), trivial⟩
    · have added : e.adds (.transpile (front ++ node :: rest)) = made := by
        refine adds_transpile items makes ?_
        rintro _ ⟨⟩
        exact ⟨fault, fails []⟩
      have stopped : e.emitAll (front ++ node :: rest) kept = (.error fault, kept ++ made) := by
        rw [emitAll_append makes, emitAll, fails]
        rfl
      simp only [perform, transpile, checked, stopped, added]
      exact ⟨.stopped items (fresh_of_makeAll makes) (fails []), trivial⟩
  · have checked := @checkItems_of_stray 0 front rest node items stray
    have added : e.adds (.transpile (front ++ node :: rest)) = [] := by
      simp [adds, stray]
    rw [Nat.zero_add] at checked
    simp only [perform, transpile, checked, added]
    exact ⟨.stray items stray, (List.append_nil kept).symm⟩

theorem perform_emitNode (builtIn : e.IsBuiltIn) (kept : List α) {node : Node}
    (item : node.isItem = true) :
    e.Does kept (.emitNode node) (e.perform kept (.emitNode node)).1 (e.adds (.emitNode node)) ∧
      (e.perform kept (.emitNode node)).2 = kept ++ e.adds (.emitNode node) := by
  obtain ⟨made, makes⟩ := makes_of_isItem builtIn item
  have fresh := makes []
  cases made with
  | ok entry =>
    simp only [perform, adds, entries, makes kept, fresh, Except.map]
    exact ⟨.emitted fresh, rfl⟩
  | error fault =>
    simp only [perform, adds, entries, makes kept, fresh, Except.map]
    exact ⟨.refused fresh, (List.append_nil kept).symm⟩

theorem perform_of_isProper (builtIn : e.IsBuiltIn) (kept : List α) {call : Call}
    (proper : call.IsProper) :
    e.Does kept call (e.perform kept call).1 (e.adds call) ∧
      (e.perform kept call).2 = kept ++ e.adds call := by
  cases call with
  | transpile nodes => exact perform_transpile builtIn kept nodes
  | emitNode node => exact perform_emitNode builtIn kept proper

/-! ## Runs -/

theorem after_concat (e : Emitter κ) (kept : κ) (calls : List Call) (call : Call) :
    e.after kept (calls ++ [call]) = (e.perform (e.after kept calls) call).2 := by
  simp [after]

theorem after_eq (builtIn : e.IsBuiltIn) (kept : List α) {calls : List Call}
    (proper : ∀ call ∈ calls, call.IsProper) :
    e.after kept calls = kept ++ calls.flatMap e.adds := by
  induction calls generalizing kept with
  | nil => simp [after]
  | cons call calls ih =>
    obtain ⟨first, rest⟩ := List.forall_mem_cons.mp proper
    have step : e.after kept (call :: calls) = e.after (e.perform kept call).2 calls := rfl
    rw [step, ih _ rest, (perform_of_isProper builtIn kept first).2]
    simp

/-- A built-in emitter keeps the entries of all calls of a run, in order. Each call ends as it does
for what is kept at that point, and adds to the end of that. -/
theorem kept_of_calls (builtIn : e.IsBuiltIn) (kept : List α) (calls : List Call)
    (proper : ∀ call ∈ calls, call.IsProper) :
    e.after kept calls = kept ++ calls.flatMap e.adds ∧
      ∀ before call rest, calls = before ++ call :: rest →
        e.Does (e.after kept before) call (e.perform (e.after kept before) call).1 (e.adds call) ∧
        e.after kept (before ++ [call]) = e.after kept before ++ e.adds call := by
  refine ⟨after_eq builtIn kept proper, ?_⟩
  rintro before call rest rfl
  have own : call.IsProper := proper call (by simp)
  obtain ⟨does, state⟩ := perform_of_isProper builtIn (e.after kept before) own
  exact ⟨does, (after_concat e kept before call).trans state⟩

end

/-- A number without text stops a list, and a node that is no item keeps all of its list out, also
behind such a number. A bare item adds nothing. -/
theorem kept_of_calls_mixed :
    let f : Node := .declaration (.prototype ⟨"f", []⟩)
    let g : Node := .declaration (.prototype ⟨"g", ["x"]⟩)
    let unwritable : Node := .definition (.prototype ⟨"h", []⟩)
      (.binary "+" (.reference "x") (.literal .nan))
    let calls : List Call := [.transpile [f, unwritable, g],
      .transpile [unwritable, .reference "x", f], .emitNode (.item (.prototype ⟨"f", []⟩)),
      .emitNode g]
    source.IsBuiltIn ∧ (∀ call ∈ calls, call.IsProper) ∧
      source.after [] calls = ["extern f();", "extern g(x);"] ∧
      ∀ before call rest, calls = before ++ call :: rest →
        source.Does (source.after [] before) call (source.perform (source.after [] before) call).1
          (source.adds call) ∧
        source.after [] (before ++ [call]) = source.after [] before ++ source.adds call := by
  intro f g unwritable calls
  have proper : ∀ call ∈ calls, call.IsProper := by simp [calls, g, Call.IsProper, Node.isItem]
  obtain ⟨state, each⟩ := kept_of_calls .source [] calls proper
  exact ⟨.source, proper, state.trans (by decide), each⟩

end Emitter

end Formulary
