import Formulary.Proofs.Parse.Refusal
import Mathlib.Data.List.Forall2
import Mathlib.Order.Monotone.Basic

/-!
Powers only rank operators. Two tables that have the same of the operators that occur, and rank
them alike, lead the parser through states that differ in nothing but the powers of the open
operations. So it comes to one outcome and stops at one token under both.
-/
namespace Formulary

section

variable {σ τ ε η α β : Type}

/-- Moves to related states, or the same end. -/
inductive Move.Alike (related : σ → τ → Prop) : Move σ ε α → Move τ ε α → Prop where
  | shift {s : σ} {s' : τ} (next : related s s') : Alike related (.shift s) (.shift s')
  | finish (a : α) : Alike related (.finish a) (.finish a)
  | refuse (e : ε) : Alike related (.refuse e) (.refuse e)
  | spoil (e : ε) : Alike related (.spoil e) (.spoil e)

/-- Machines that move alike from related states have the same runs. -/
theorem Machine.run_alike {m : Machine σ ε α} {n : Machine τ ε α} (related : σ → τ → Prop)
    {tokens : List Token}
    (step : ∀ s s' t, t ∈ tokens → related s s' → Move.Alike related (m.step s t) (n.step s' t))
    (atEnd : ∀ s s', related s s' → m.atEnd s = n.atEnd s') {s : σ} {s' : τ}
    (start : related s s') : m.run s tokens = n.run s' tokens := by
  induction tokens generalizing s s' with
  | nil => simp only [run, atEnd s s' start]
  | cons t tokens ih =>
    have moves := step s s' t (by simp) start
    simp only [run]
    split
    · simp only [atEnd s s' start]
    · generalize m.step s t = first at moves
      generalize n.step s' t = second at moves
      cases moves with
      | shift next =>
        exact ih (fun r r' u member => step r r' u (List.mem_cons_of_mem t member)) next
      | finish a => rfl
      | refuse e => rfl
      | spoil e => rfl

theorem Move.Alike.within {σ' τ' : Type} {related : σ → τ → Prop} {related' : σ' → τ' → Prop}
    {state : σ → σ'} {state' : τ → τ'} {fault : ε → η} {finished : α → Move σ' η β}
    {finished' : α → Move τ' η β} {first : Move σ ε α} {second : Move τ ε α}
    (moves : Alike related first second)
    (inside : ∀ s s', related s s' → related' (state s) (state' s'))
    (after : ∀ a, Alike related' (finished a) (finished' a)) :
    Alike related' (first.within state fault finished) (second.within state' fault finished') := by
  cases moves with
  | shift next => exact .shift (inside _ _ next)
  | finish a => exact after a
  | refuse e => exact .refuse (fault e)
  | spoil e => exact .spoil (fault e)

end

/-- The operators that occur among tokens. -/
def operatorSymbols (tokens : List Token) : List String :=
  (tokens.filter (·.kind == .operator)).map (·.value.plain)

theorem mem_operatorSymbols {tokens : List Token} {t : Token} (member : t ∈ tokens)
    (kind : t.kind = .operator) : t.value.plain ∈ operatorSymbols tokens := by
  refine List.mem_map_of_mem (List.mem_filter.mpr ⟨member, ?_⟩)
  simp [kind]

/-- The tables have the same of these operators and order their powers alike. -/
structure OperatorTable.RanksAlike (table other : OperatorTable) (symbols : List String) :
    Prop where
  present : ∀ a ∈ symbols, (table.powerOf? a).isSome = (other.powerOf? a).isSome
  order : ∀ a ∈ symbols, ∀ b ∈ symbols, ∀ p q p' q', table.powerOf? a = some p →
    table.powerOf? b = some q → other.powerOf? a = some p' → other.powerOf? b = some q' →
      (p ≤ q ↔ p' ≤ q')

/-- Powers that increase with those of another table rank the operators as that one does. -/
theorem ranksAlike_of_increasing {table other : OperatorTable} {symbols : List String}
    {power : Nat → Nat} (increasing : StrictMono power)
    (same : ∀ a ∈ symbols, other.powerOf? a = (table.powerOf? a).map power) :
    table.RanksAlike other symbols := by
  constructor
  · intro a member
    rw [same a member, Option.isSome_map]
  · intro a first b second p q p' q' known known' raised raised'
    rw [same a first, known, Option.map_some, Option.some.injEq] at raised
    rw [same b second, known', Option.map_some, Option.some.injEq] at raised'
    rw [← raised, ← raised', increasing.le_iff_le]

section

variable (table other : OperatorTable) (symbols : List String)

/-- Frames that differ in powers at most. -/
inductive Frame.Alike : Frame → Frame → Prop where
  | operation {left : Node} {op : String} {p p' : Nat} (member : op ∈ symbols)
    (known : table.powerOf? op = some p) (known' : other.powerOf? op = some p') :
    Alike (.operation left op p) (.operation left op p')
  | group : Alike .group .group
  | call (callee : String) (args : List Node) : Alike (.call callee args) (.call callee args)

structure Reading.Alike (r r' : Reading) : Prop where
  frames : List.Forall₂ (Frame.Alike table other symbols) r.frames r'.frames
  focus : r.focus = r'.focus

inductive ItemReading.Alike : ItemReading → ItemReading → Prop where
  | declaration (r : PrototypeReading) : Alike (.declaration r) (.declaration r)
  | definition (r : PrototypeReading) : Alike (.definition r) (.definition r)
  | body (p : Prototype) {r r' : Reading} (inner : r.Alike table other symbols r') :
    Alike (.body p r) (.body p r')

inductive ProgramReading.Alike : ProgramReading → ProgramReading → Prop where
  | between (items : List Node) : Alike ⟨items, none⟩ ⟨items, none⟩
  | inside (items : List Node) {item item' : ItemReading}
    (inner : item.Alike table other symbols item') : Alike ⟨items, some item⟩ ⟨items, some item'⟩

/-- Two powers stand alike to the powers of all operators. -/
def RankAlike (p p' : Nat) : Prop :=
  ∀ op ∈ symbols, ∀ q q', table.powerOf? op = some q → other.powerOf? op = some q' →
    (p ≤ q ↔ p' ≤ q')

end

variable {table other : OperatorTable} {symbols : List String}

theorem rankAlike_zero : RankAlike table other symbols 0 0 := by
  intro op _ q q' _ _
  exact iff_of_true (Nat.zero_le q) (Nat.zero_le q')

theorem OperatorTable.RanksAlike.rankAlike (alike : table.RanksAlike other symbols) {op : String}
    {p p' : Nat} (member : op ∈ symbols) (known : table.powerOf? op = some p)
    (known' : other.powerOf? op = some p') : RankAlike table other symbols p p' := by
  intro op' member' q q' present present'
  exact alike.order op member op' member' p q p' q' known present known' present'

/-- Operations are closed in both states or in none. -/
theorem settle_alike {p p' : Nat} (rank : RankAlike table other symbols p p')
    {frames frames' : List Frame}
    (pairs : List.Forall₂ (Frame.Alike table other symbols) frames frames') (operand : Node) :
    ∃ inner inner' whole, settle p frames operand = (inner, whole) ∧
      settle p' frames' operand = (inner', whole) ∧
        List.Forall₂ (Frame.Alike table other symbols) inner inner' := by
  induction pairs generalizing operand with
  | nil => exact ⟨[], [], operand, rfl, rfl, .nil⟩
  | @cons frame frame' outer outer' first rest ih =>
    cases first with
    | @operation left op q q' member known known' =>
      have same := rank op member q q' known known'
      simp only [settle, same]
      split
      · exact ih _
      · exact ⟨_, _, operand, rfl, rfl, .cons (.operation member known known') rest⟩
    | group => exact ⟨_, _, operand, rfl, rfl, .cons .group rest⟩
    | call callee args => exact ⟨_, _, operand, rfl, rfl, .cons (.call callee args) rest⟩

namespace Expression

variable {frames frames' : List Frame}

theorem beginOperand_alike (pairs : List.Forall₂ (Frame.Alike table other symbols) frames frames')
    (t : Token) : Move.Alike (Reading.Alike table other symbols) (beginOperand frames t)
      (beginOperand frames' t) := by
  unfold beginOperand
  split
  · split
    · exact .shift ⟨pairs, rfl⟩
    · exact .spoil _
  · exact .shift ⟨pairs, rfl⟩
  · exact .shift ⟨.cons .group pairs, rfl⟩
  · exact .refuse _

theorem continueWith_alike (alike : table.RanksAlike other symbols)
    (pairs : List.Forall₂ (Frame.Alike table other symbols) frames frames') (operand : Node)
    {t : Token} (member : t.value.plain ∈ symbols) :
    Move.Alike (Reading.Alike table other symbols)
      (continueWith table (.atLeast 0) frames operand t)
      (continueWith other (.atLeast 0) frames' operand t) := by
  have present := alike.present _ member
  unfold continueWith
  cases known : table.powerOf? t.value.plain with
  | none =>
    cases known' : other.powerOf? t.value.plain with
    | none => exact .refuse _
    | some p' => simp [known, known'] at present
  | some p =>
    cases known' : other.powerOf? t.value.plain with
    | none => simp [known, known'] at present
    | some p' =>
      -- No power is below zero, so neither table ends an expression at one of its operators.
      have below (power : Nat) : ¬ (power : Int) < 0 := by omega
      obtain ⟨inner, inner', left, settled, settled', rest⟩ :=
        settle_alike (alike.rankAlike member known known') pairs operand
      have next : Reading.Alike table other symbols
          ⟨.operation left t.value.plain p :: inner, .operand⟩
          ⟨.operation left t.value.plain p' :: inner', .operand⟩ :=
        ⟨.cons (.operation member known known') rest, rfl⟩
      simp only [settled, settled']
      cases rest with
      | nil =>
        simp only [if_neg (below p), if_neg (below p')]
        exact .shift next
      | cons => exact .shift next

theorem close_alike (pairs : List.Forall₂ (Frame.Alike table other symbols) frames frames')
    (operand : Node) (t : Token) :
    Move.Alike (Reading.Alike table other symbols) (close frames operand t)
      (close frames' operand t) := by
  obtain ⟨inner, inner', whole, settled, settled', rest⟩ :=
    settle_alike rankAlike_zero pairs operand
  simp only [close, settled, settled']
  cases rest with
  | nil => exact .finish _
  | cons frame outer =>
    cases frame with
    | operation => exact .finish _
    | group =>
      dsimp only
      split
      · exact .shift ⟨outer, rfl⟩
      · exact .refuse _
    | call callee args =>
      dsimp only
      split
      · exact .shift ⟨.cons (.call _ _) outer, rfl⟩
      · exact .shift ⟨outer, rfl⟩
      · exact .refuse _

theorem afterOperand_alike (alike : table.RanksAlike other symbols)
    (pairs : List.Forall₂ (Frame.Alike table other symbols) frames frames') (operand : Node)
    {t : Token} (occurs : t.kind = .operator → t.value.plain ∈ symbols) :
    Move.Alike (Reading.Alike table other symbols)
      (afterOperand table (.atLeast 0) frames operand t)
      (afterOperand other (.atLeast 0) frames' operand t) := by
  rw [afterOperand_within (by simp), afterOperand_within (by simp)]
  split
  · next kind => exact continueWith_alike alike pairs operand (occurs kind)
  · exact close_alike pairs operand t

theorem step_alike (alike : table.RanksAlike other symbols) {r r' : Reading}
    (same : r.Alike table other symbols r') {t : Token}
    (occurs : t.kind = .operator → t.value.plain ∈ symbols) :
    Move.Alike (Reading.Alike table other symbols) (step table (.atLeast 0) r t)
      (step other (.atLeast 0) r' t) := by
  obtain ⟨frames, focus⟩ := r
  obtain ⟨frames', focus'⟩ := r'
  obtain ⟨pairs, rfl⟩ := same
  cases focus with
  | operand => exact beginOperand_alike pairs t
  | argument =>
    have operand := beginOperand_alike pairs t
    simp only [step]
    cases pairs with
    | nil => exact operand
    | cons frame outer =>
      cases frame with
      | operation => exact operand
      | group => exact operand
      | call callee args =>
        dsimp only
        split
        · exact .shift ⟨outer, rfl⟩
        · exact operand
  | name text =>
    simp only [step]
    split
    · exact .shift ⟨.cons (.call _ _) pairs, rfl⟩
    · exact afterOperand_alike alike pairs _ occurs
  | complete operand => exact afterOperand_alike alike pairs operand occurs

theorem completes_alike {r r' : Reading} (same : r.Alike table other symbols r') {e : Node} :
    r.Completes e ↔ r'.Completes e := by
  have whole (operand : Node) :
      settle 0 r.frames operand = ([], e) ↔ settle 0 r'.frames operand = ([], e) := by
    obtain ⟨inner, inner', whole, settled, settled', rest⟩ :=
      settle_alike rankAlike_zero same.frames operand
    rw [settled, settled']
    cases rest <;> simp
  simp only [Reading.Completes, same.focus, whole]

theorem atEnd_alike {r r' : Reading} (same : r.Alike table other symbols r') :
    atEnd r = atEnd r' := by
  have completes : ∀ e, atEnd r = .ok e ↔ atEnd r' = .ok e := by
    intro e
    rw [atEnd_eq_ok_iff, atEnd_eq_ok_iff, completes_alike same]
  cases found : atEnd r with
  | ok e => exact ((completes e).mp found).symm
  | error fault =>
    cases found' : atEnd r' with
    | ok e => simp [(completes e).mpr found'] at found
    | error fault' => rw [atEnd_error found, atEnd_error found']

end Expression

namespace ItemReading

theorem stepBody_alike (alike : table.RanksAlike other symbols) (p : Prototype) {r r' : Reading}
    (same : r.Alike table other symbols r') {t : Token}
    (occurs : t.kind = .operator → t.value.plain ∈ symbols) :
    Move.Alike (ItemReading.Alike table other symbols) (stepBody table p r t)
      (stepBody other p r' t) :=
  (Expression.step_alike alike same occurs).within (fun _ _ => .body p) fun _ => .finish _

theorem step_alike (alike : table.RanksAlike other symbols) {r r' : ItemReading}
    (same : r.Alike table other symbols r') {t : Token}
    (occurs : t.kind = .operator → t.value.plain ∈ symbols) :
    Move.Alike (ItemReading.Alike table other symbols) (step table r t) (step other r' t) := by
  cases same with
  | declaration r =>
    simp only [step]
    cases r.step t with
    | shift next => exact .shift (.declaration next)
    | finish p => exact .finish _
    | refuse e => exact .refuse _
    | spoil e => exact .spoil _
  | definition r =>
    simp only [step]
    cases r.step t with
    | shift next => exact .shift (.definition next)
    | finish p => exact stepBody_alike alike p ⟨.nil, rfl⟩ occurs
    | refuse e => exact .refuse _
    | spoil e => exact .spoil _
  | body p inner => exact stepBody_alike alike p inner occurs

theorem atEnd_alike {r r' : ItemReading} (same : r.Alike table other symbols r') :
    r.atEnd = r'.atEnd := by
  cases same with
  | declaration r => rfl
  | definition r => rfl
  | body p inner => simp only [atEnd, Expression.atEnd_alike inner]

end ItemReading

namespace ProgramReading

theorem stepItem_alike (alike : table.RanksAlike other symbols) (items : List Node)
    {r r' : ItemReading} (same : r.Alike table other symbols r') {t : Token}
    (occurs : t.kind = .operator → t.value.plain ∈ symbols)
    {next next' : Node → Move ProgramReading ProgramFault (List Node)}
    (after : ∀ node,
      Move.Alike (ProgramReading.Alike table other symbols) (next node) (next' node)) :
    Move.Alike (ProgramReading.Alike table other symbols) (stepItem table items r t next)
      (stepItem other items r' t next') :=
  (ItemReading.step_alike alike same occurs).within (fun _ _ => .inside items) after

theorem begin_alike (alike : table.RanksAlike other symbols) (items : List Node) {t : Token}
    (occurs : t.kind = .operator → t.value.plain ∈ symbols) :
    Move.Alike (ProgramReading.Alike table other symbols) (begin table items t)
      (begin other items t) := by
  unfold begin
  split
  · exact .shift (.inside items (.definition .start))
  · exact .shift (.inside items (.declaration .start))
  · exact .shift (.between items)
  · exact stepItem_alike alike items (.body .anonymous ⟨.nil, rfl⟩) occurs fun _ => .finish _

theorem step_alike (alike : table.RanksAlike other symbols) {r r' : ProgramReading}
    (same : r.Alike table other symbols r') {t : Token}
    (occurs : t.kind = .operator → t.value.plain ∈ symbols) :
    Move.Alike (ProgramReading.Alike table other symbols) (step table r t) (step other r' t) := by
  cases same with
  | between items => exact begin_alike alike items occurs
  | inside items inner =>
    exact stepItem_alike alike items inner occurs fun node =>
      begin_alike alike (node :: items) occurs

theorem atEnd_alike {r r' : ProgramReading} (same : r.Alike table other symbols r') :
    r.atEnd = r'.atEnd := by
  cases same with
  | between items => rfl
  | inside items inner => simp only [atEnd, ItemReading.atEnd_alike inner]

end ProgramReading

/-- Tables that rank the operators of a token list alike lead to the same outcome, and to the same
token. -/
theorem program_of_ranksAlike (table other : OperatorTable) (tokens : List Token)
    (alike : table.RanksAlike other (operatorSymbols tokens)) :
    (Parser.mk tokens 0 table).program.1 = (Parser.mk tokens 0 other).program.1 ∧
      (Parser.mk tokens 0 table).program.2.position =
        (Parser.mk tokens 0 other).program.2.position := by
  have runs : parseTokens table tokens = parseTokens other tokens :=
    Machine.run_alike (ProgramReading.Alike table other (operatorSymbols tokens))
      (fun r r' t member same => ProgramReading.step_alike alike same (mem_operatorSymbols member))
      (fun r r' same => ProgramReading.atEnd_alike same) (.between [])
  simp only [program_eq, runs, and_self]

/-- Powers shifted down to zero, in another order and with one more operator. -/
theorem program_of_ranksAlike_shifted :
    let minus : Token := ⟨.operator, .text "-", .nowhere⟩
    let times : Token := ⟨.operator, .text "*", .nowhere⟩
    let a : Token := ⟨.name, .text "a", .nowhere⟩
    let tokens := [a, minus, a, times, a, minus, a]
    let shifted : OperatorTable :=
      ⟨[⟨'^', 2, by decide⟩, ⟨'-', 0, by decide⟩, ⟨'*', 1, by decide⟩]⟩
    shifted.RanksAlike .default (operatorSymbols tokens) ∧
      (Parser.mk tokens 0 shifted).program.1 = (Parser.mk tokens 0 .default).program.1 ∧
      (Parser.mk tokens 0 shifted).program.2.position =
        (Parser.mk tokens 0 .default).program.2.position := by
  intro minus times a tokens shifted
  have increasing : StrictMono (20 * · + 20 : Nat → Nat) := by
    intro p q less
    dsimp only
    omega
  have alike : shifted.RanksAlike .default (operatorSymbols tokens) :=
    ranksAlike_of_increasing increasing (by decide)
  exact ⟨alike, program_of_ranksAlike shifted .default tokens alike⟩

end Formulary
