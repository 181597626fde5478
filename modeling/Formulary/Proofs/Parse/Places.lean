import Formulary.Proofs.Parse.Refusal
import Mathlib.Data.List.Forall2

/-!
Places play no part in reading. Two lists of tokens that agree but for the places make every
machine move alike, so they are read to the same nodes, or refused for faults that are equal.
-/
namespace Formulary

/-- Tokens that are equal and cannot be told apart but by their places. -/
structure Token.Agrees (a b : Token) : Prop where
  kind : a.kind = b.kind
  value : a.value = b.value
  equal : a.equals b = true

section

variable {σ ε α : Type}

/-- The same result, or faults that count as the same. -/
inductive SameOutcome (same : ε → ε → Prop) : Except ε α → Except ε α → Prop where
  | ok (a : α) : SameOutcome same (.ok a) (.ok a)
  | error {e f : ε} (faults : same e f) : SameOutcome same (.error e) (.error f)

inductive SameMove (same : ε → ε → Prop) : Move σ ε α → Move σ ε α → Prop where
  | shift (s : σ) : SameMove same (.shift s) (.shift s)
  | finish (a : α) : SameMove same (.finish a) (.finish a)
  | refuse {e f : ε} (faults : same e f) : SameMove same (.refuse e) (.refuse f)
  | spoil {e f : ε} (faults : same e f) : SameMove same (.spoil e) (.spoil f)

variable {same : ε → ε → Prop}

theorem Machine.run_agree {m : Machine σ ε α}
    (step : ∀ (s : σ) (a b : Token), a.Agrees b → SameMove same (m.step s a) (m.step s b))
    (atEnd : ∀ s, SameOutcome same (m.atEnd s) (m.atEnd s)) {v w : List Token}
    (pairs : List.Forall₂ Token.Agrees v w) (s : σ) :
    SameOutcome same (m.run s v).1 (m.run s w).1 := by
  -- Both runs are in one state until they stop, for they shift alike.
  induction pairs generalizing s with
  | nil => exact atEnd s
  | @cons a b v w agrees _ ih =>
    simp only [run, agrees.kind]
    split
    · exact atEnd s
    · have moves := step s a b agrees
      generalize m.step s a = first at moves
      generalize m.step s b = second at moves
      cases moves with
      | shift next => exact ih next
      | finish a => exact .ok a
      | refuse faults => exact .error faults
      | spoil faults => exact .error faults

theorem SameOutcome.mapError {η : Type} {same' : η → η → Prop} {fault : ε → η}
    {first second : Except ε α} (outcomes : SameOutcome same first second)
    (faults : ∀ e f, same e f → same' (fault e) (fault f)) :
    SameOutcome same' (first.mapError fault) (second.mapError fault) := by
  cases outcomes with
  | ok a => exact .ok a
  | error related => exact .error (faults _ _ related)

theorem SameMove.within {τ η β : Type} {same' : η → η → Prop} {state : σ → τ} {fault : ε → η}
    {finished finished' : α → Move τ η β} {first second : Move σ ε α}
    (moves : SameMove same first second) (faults : ∀ e f, same e f → same' (fault e) (fault f))
    (after : ∀ a, SameMove same' (finished a) (finished' a)) :
    SameMove same' (first.within state fault finished) (second.within state fault finished') := by
  cases moves with
  | shift s => exact .shift (state s)
  | finish a => exact after a
  | refuse related => exact .refuse (faults _ _ related)
  | spoil related => exact .spoil (faults _ _ related)

end

/-- Equality of faults. -/
def Fault.Same (e f : Fault) : Prop := e.equals f = true

/-- Equal faults, and the same items before them. -/
def ProgramFault.Same (e f : ProgramFault) : Prop := e.items = f.items ∧ e.fault.Same f.fault

variable {table : OperatorTable} {a b : Token}

theorem Token.Spoils.same {fault : Fault} (spoils : a.Spoils fault) : fault.Same fault := by
  rcases spoils.cases with ⟨text, rfl⟩ | rfl
  · simp [Fault.Same, Fault.equals]
  · rfl

theorem PrototypeReading.step_agree (r : PrototypeReading) (agrees : a.Agrees b) :
    SameMove Fault.Same (r.step a) (r.step b) := by
  unfold step
  rw [agrees.kind, agrees.value]
  split
  all_goals first | exact .shift _ | exact .finish _ | exact .refuse agrees.equal

namespace Expression

variable {bound : Bound}

theorem number_agree (value : a.value = b.value) : a.number? = b.number? := by
  rw [Token.number?, Token.number?, value]

theorem beginOperand_agree (frames : List Frame) (agrees : a.Agrees b) :
    SameMove Fault.Same (beginOperand frames a) (beginOperand frames b) := by
  unfold beginOperand
  rw [agrees.kind, agrees.value, number_agree agrees.value]
  split
  · next kind =>
    cases number : b.number? with
    | ok x => exact .shift _
    | error fault => exact .spoil (Token.Spoils.same ⟨kind, number⟩)
  · exact .shift _
  · exact .shift _
  · exact .refuse agrees.equal

theorem continueWith_agree (frames : List Frame) (operand : Node) (agrees : a.Agrees b) :
    SameMove Fault.Same (continueWith table bound frames operand a)
      (continueWith table bound frames operand b) := by
  unfold continueWith
  rw [agrees.value]
  split
  · exact .refuse (by simp [Fault.Same, Fault.equals])
  · split
    · split
      · exact .finish _
      · exact .shift _
    · exact .shift _

theorem close_agree (frames : List Frame) (operand : Node) (agrees : a.Agrees b) :
    SameMove Fault.Same (close frames operand a) (close frames operand b) := by
  unfold close
  rw [agrees.kind]
  split
  · split
    · exact .shift _
    · exact .refuse agrees.equal
  · split
    · exact .shift _
    · exact .shift _
    · exact .refuse agrees.equal
  · exact .finish _

theorem afterOperand_agree (frames : List Frame) (operand : Node) (agrees : a.Agrees b) :
    SameMove Fault.Same (afterOperand table bound frames operand a)
      (afterOperand table bound frames operand b) := by
  unfold afterOperand
  split
  · exact .finish _
  · rw [agrees.kind]
    split
    · exact continueWith_agree _ _ agrees
    · exact close_agree _ _ agrees

theorem step_agree (r : Reading) (agrees : a.Agrees b) :
    SameMove Fault.Same (step table bound r a) (step table bound r b) := by
  unfold step
  rw [agrees.kind]
  split
  · exact beginOperand_agree _ agrees
  · split
    · split
      · exact .shift _
      · exact beginOperand_agree _ agrees
    · exact beginOperand_agree _ agrees
  · split
    · exact .shift _
    · exact afterOperand_agree _ _ agrees
  · exact afterOperand_agree _ _ agrees

end Expression

namespace ItemReading

theorem stepBody_agree (p : Prototype) (r : Reading) (agrees : a.Agrees b) :
    SameMove Fault.Same (stepBody table p r a) (stepBody table p r b) :=
  (Expression.step_agree r agrees).within (fun _ _ => id) fun _ => .finish _

theorem step_agree (r : ItemReading) (agrees : a.Agrees b) :
    SameMove Fault.Same (step table r a) (step table r b) := by
  cases r with
  | declaration r => exact (r.step_agree agrees).within (fun _ _ => id) fun _ => .finish _
  | definition r =>
    exact (r.step_agree agrees).within (fun _ _ => id) fun p => stepBody_agree p _ agrees
  | body p r => exact stepBody_agree p r agrees

end ItemReading

namespace ProgramReading

theorem stepItem_agree (items : List Node) (r : ItemReading)
    {next next' : Node → Move ProgramReading ProgramFault (List Node)} (agrees : a.Agrees b)
    (after : ∀ node, SameMove ProgramFault.Same (next node) (next' node)) :
    SameMove ProgramFault.Same (stepItem table items r a next) (stepItem table items r b next') :=
  (r.step_agree agrees).within (fun _ _ faults => ⟨rfl, faults⟩) after

theorem begin_agree (items : List Node) (agrees : a.Agrees b) :
    SameMove ProgramFault.Same (begin table items a) (begin table items b) := by
  unfold begin
  rw [agrees.kind]
  split
  · exact .shift _
  · exact .shift _
  · exact .shift _
  · exact stepItem_agree items .bare agrees fun _ => .finish _

theorem step_agree (r : ProgramReading) (agrees : a.Agrees b) :
    SameMove ProgramFault.Same (step table r a) (step table r b) := by
  unfold step
  split
  · exact begin_agree _ agrees
  · exact stepItem_agree _ _ agrees fun node => begin_agree (node :: r.items) agrees

theorem atEnd_agree (r : ProgramReading) : SameOutcome ProgramFault.Same r.atEnd r.atEnd := by
  cases outcome : r.atEnd with
  | ok nodes => exact .ok nodes
  | error e =>
    obtain ⟨rfl, _⟩ := atEnd_error outcome
    exact .error ⟨rfl, rfl⟩

end ProgramReading

/-- Tokens that agree but for their places are read to the same outcome. -/
theorem parse_agree {v w : List Token} (pairs : List.Forall₂ Token.Agrees v w) :
    SameOutcome ProgramFault.Same (parseTokens table v).1 (parseTokens table w).1 :=
  Machine.run_agree (m := ProgramReading.machine table)
    (fun r _ _ agrees => ProgramReading.step_agree r agrees) ProgramReading.atEnd_agree pairs _

end Formulary
