import Formulary.Proofs.Parse.Descent
import Formulary.Proofs.Parse.Rendering

/-!
What is open to the left stands for the descents that have not come to their outcome. The machine
does in one run what a descent does round by round: behind the result of a descent it goes on as if
that stood there as a complete operand, and where a descent fails, it fails alike.
-/
namespace Formulary

theorem nextKind_eq {tokens : List Token} {t : Token} (member : t ∈ tokens.head?) :
    nextKind tokens = t.kind := by
  obtain ⟨rest, rfl⟩ := List.head?_eq_some_iff.mp member
  rfl

namespace Machine

variable {σ ε α : Type}

theorem run_shift {m : Machine σ ε α} {s next : σ} {t : Token} (live : t.kind ≠ .ending)
    (move : m.step s t = .shift next) (rest : List Token) :
    m.run s (t :: rest) = m.run next rest :=
  run_shifts (.cons live move (.nil next)) rest

theorem run_ended {m : Machine σ ε α} {s : σ} {tokens : List Token}
    (ending : nextKind tokens = .ending) : m.run s tokens = (m.atEnd s, tokens) := by
  cases tokens with
  | nil => rfl
  | cons t rest => simp only [run, if_pos (show t.kind = .ending from ending)]

/-- Two states that do the same with the next token, or with the end, are one. -/
theorem run_congr {m : Machine σ ε α} {s s' : σ} {tokens : List Token}
    (ends : nextKind tokens = .ending → m.atEnd s = m.atEnd s')
    (steps : ∀ t ∈ tokens.head?, t.kind ≠ .ending → m.step s t = m.step s' t) :
    m.run s tokens = m.run s' tokens := by
  by_cases ending : nextKind tokens = .ending
  · rw [run_ended ending, run_ended ending, ends ending]
  · cases tokens with
    | nil => exact absurd rfl ending
    | cons t rest =>
      have live : t.kind ≠ .ending := ending
      simp only [run, if_neg live, steps t rfl live]

/-- A state that may not end and takes no such token reports it, or the end. -/
theorem run_fault {m : Machine σ Fault α} {s : σ} {tokens : List Token}
    (ends : m.atEnd s = .error .unexpectedEnd)
    (refuses : ∀ t ∈ tokens.head?, t.kind ≠ .ending → m.step s t = .refuse (.unexpectedToken t)) :
    m.run s tokens = (.error (faultAt tokens), tokens) := by
  cases tokens with
  | nil => simp only [run, ends, faultAt]
  | cons t rest =>
    by_cases ending : t.kind = .ending
    · simp only [run, faultAt, if_pos ending, ends]
    · simp only [run, faultAt, if_neg ending, refuses t rfl ending]

/-- Outcomes that all are the one of a run are exactly that, once there is any. -/
theorem iff_run {m : Machine σ ε α} {s : σ} {tokens : List Token}
    {outcomes : Except ε α → List Token → Prop}
    (sound : ∀ outcome rest, outcomes outcome rest → m.run s tokens = (outcome, rest))
    (ends : ∃ outcome rest, outcomes outcome rest) {outcome : Except ε α} {rest : List Token} :
    outcomes outcome rest ↔ m.run s tokens = (outcome, rest) := by
  constructor
  · exact sound outcome rest
  · intro run
    obtain ⟨_, _, found⟩ := ends
    obtain ⟨rfl, rfl⟩ := Prod.mk.injEq .. ▸ (sound _ _ found).symm.trans run
    exact found

end Machine

namespace Expression

variable {table : OperatorTable} {bound : Bound}

/-- From a reading on the machine comes to the outcome of a descent, in front of these frames. -/
def Unwinds (table : OperatorTable) (bound : Bound) (r : Reading) (frames : List Frame)
    (tokens : List Token) (outcome : Except Fault Node) (rest : List Token) : Prop :=
  (machine table bound).run r tokens = match outcome with
    | .ok e => (machine table bound).run ⟨frames, .complete e⟩ rest
    | .error fault => (.error fault, rest)

/-- Operators of this power or a higher one are taken here and close nothing that is open. -/
def Shields (bound : Bound) (least : Int) : List Frame → Prop
  | [] => ∃ lower, bound = .atLeast lower ∧ lower ≤ least
  | .operation _ _ power :: _ => (power : Int) < least
  | _ => True

theorem Shields.within {least : Int} {frames : List Frame} (shields : Shields bound least frames) :
    frames = [] → bound ≠ .none := by
  rintro rfl
  obtain ⟨lower, rfl, _⟩ := shields
  simp

theorem Shields.leavesOpen {least : Int} {frames : List Frame} {power : Nat}
    (shields : Shields bound least frames) (enough : least ≤ (power : Int)) :
    LeavesOpen power frames := by
  unfold Shields at shields
  unfold LeavesOpen
  split
  · simp only at shields
    omega
  · trivial

/-! ## Single tokens -/

theorem run_takes {r next : Reading} {t : Token} (live : t.kind ≠ .ending)
    (takes : Takes table bound r t next) (rest : List Token) :
    (machine table bound).run r (t :: rest) = (machine table bound).run next rest :=
  Machine.run_shift live (step_of_takes takes) rest

theorem run_spoilt {frames : List Frame} {t : Token} {fault : Fault} (kind : t.kind = .number)
    (value : t.number? = .error fault) (rest : List Token) :
    (machine table bound).run ⟨frames, .operand⟩ (t :: rest) = (.error fault, rest) := by
  have live : t.kind ≠ .ending := by simp [kind]
  have spoils : step table bound ⟨frames, .operand⟩ t = .spoil fault := by
    simp only [step, beginOperand, kind, value]
  simp only [Machine.run, machine, if_neg live, spoils]

theorem run_callee {frames : List Frame} {t opening : Token} (kind : t.kind = .name)
    (opens : opening.kind = .opening) (rest : List Token) :
    (machine table bound).run ⟨frames, .operand⟩ (t :: opening :: rest) =
      (machine table bound).run ⟨.call t.value.plain [] :: frames, .argument⟩ rest :=
  calc (machine table bound).run ⟨frames, .operand⟩ (t :: opening :: rest)
      = (machine table bound).run ⟨frames, .name t.value.plain⟩ (opening :: rest) :=
        run_takes (by simp [kind]) (.name (.inl rfl) kind) _
    _ = (machine table bound).run ⟨.call t.value.plain [] :: frames, .argument⟩ rest :=
        run_takes (by simp [opens]) (.call opens) rest

theorem run_noOperand {frames : List Frame} {tokens : List Token}
    (number : nextKind tokens ≠ .number) (name : nextKind tokens ≠ .name)
    (opening : nextKind tokens ≠ .opening) :
    (machine table bound).run ⟨frames, .operand⟩ tokens = (.error (faultAt tokens), tokens) := by
  refine Machine.run_fault rfl ?_
  intro t member _
  rw [nextKind_eq member] at number name opening
  simp [machine, step, beginOperand]

theorem run_reference {frames : List Frame} {name : String} {rest : List Token}
    (bare : nextKind rest ≠ .opening) : (machine table bound).run ⟨frames, .name name⟩ rest =
      (machine table bound).run ⟨frames, .complete (.reference name)⟩ rest := by
  refine Machine.run_congr (fun _ => rfl) ?_
  intro t member _
  rw [nextKind_eq member] at bare
  simp only [machine, step, if_neg bare]

theorem run_argument {frames : List Frame} {callee : String} {args : List Node}
    {tokens : List Token} (nonempty : nextKind tokens ≠ .closing) :
    (machine table bound).run ⟨.call callee args :: frames, .argument⟩ tokens =
      (machine table bound).run ⟨.call callee args :: frames, .operand⟩ tokens := by
  refine Machine.run_congr (fun _ => rfl) ?_
  intro t member _
  rw [nextKind_eq member] at nonempty
  simp only [machine, step, if_neg nonempty]

/-! ## Parentheses and operations -/

theorem step_bracket {frame : Frame} {frames : List Frame} {e : Node} {t : Token}
    (operator : t.kind ≠ .operator) :
    (machine table bound).step ⟨frame :: frames, .complete e⟩ t = close (frame :: frames) e t := by
  simp only [machine, step]
  rw [afterOperand_within (by simp), if_neg operator]

theorem run_unclosed {frames : List Frame} {e : Node} {rest : List Token}
    (operator : nextKind rest ≠ .operator) (closing : nextKind rest ≠ .closing) :
    (machine table bound).run ⟨.group :: frames, .complete e⟩ rest =
      (.error (faultAt rest), rest) := by
  refine Machine.run_fault rfl ?_
  intro t member _
  rw [nextKind_eq member] at operator closing
  rw [step_bracket operator]
  simp [close, settle]

theorem run_unclosedCall {frames : List Frame} {callee : String} {args : List Node} {e : Node}
    {rest : List Token} (operator : nextKind rest ≠ .operator) (comma : nextKind rest ≠ .comma)
    (closing : nextKind rest ≠ .closing) :
    (machine table bound).run ⟨.call callee args :: frames, .complete e⟩ rest =
      (.error (faultAt rest), rest) := by
  refine Machine.run_fault rfl ?_
  intro t member _
  rw [nextKind_eq member] at operator comma closing
  rw [step_bracket operator]
  simp [close, settle]

theorem settle_operation {least power : Nat} {left right : Node} {op : String}
    {frames : List Frame} (closes : least ≤ power) :
    settle least (.operation left op power :: frames) right =
      settle least frames (.binary op left right) := by
  rw [settle, if_pos closes]

/-- An operation is closed by whatever does not bind more tightly. -/
theorem run_operation {frames : List Frame} {left right : Node} {op : String} {power : Nat}
    {rest : List Token} (within : frames = [] → bound ≠ .none)
    (stops : Descends.StopsBelow table (power + 1) rest) :
    (machine table bound).run ⟨.operation left op power :: frames, .complete right⟩ rest =
      (machine table bound).run ⟨frames, .complete (.binary op left right)⟩ rest := by
  refine Machine.run_congr ?_ ?_
  · intro _
    simp only [machine, atEnd, settle_operation (Nat.zero_le power)]
  · intro t member _
    simp only [machine, step]
    rw [afterOperand_within (by simp), afterOperand_within within]
    split
    · next kind =>
      obtain ⟨next, known, below⟩ := stops t member kind
      simp only [continueWith, known, settle_operation (by omega : next ≤ power)]
    · simp only [close, settle_operation (Nat.zero_le power)]

theorem run_operator {frames : List Frame} {t : Token} {power : Nat} {least : Int}
    (shields : Shields bound least frames) (kind : t.kind = .operator)
    (known : table.powerOf? t.value.plain = some power) (enough : least ≤ (power : Int))
    (left : Node) (rest : List Token) :
    (machine table bound).run ⟨frames, .complete left⟩ (t :: rest) =
      (machine table bound).run ⟨.operation left t.value.plain power :: frames, .operand⟩ rest := by
  have stays := settle_leavesOpen (shields.leavesOpen enough) left
  refine run_takes (by simp [kind]) (.operator rfl kind known stays shields.within ?_) rest
  rintro rfl lower same
  obtain ⟨other, same', below⟩ := shields
  obtain rfl := Bound.atLeast.inj (same.symm.trans same')
  omega

theorem run_unknown {frames : List Frame} {left : Node} {t : Token} {rest : List Token}
    (within : frames = [] → bound ≠ .none) (kind : t.kind = .operator)
    (missing : table.powerOf? t.value.plain = none) :
    (machine table bound).run ⟨frames, .complete left⟩ (t :: rest) =
      (.error (.unknownOperator t.value.plain), t :: rest) := by
  have refused : step table bound ⟨frames, .complete left⟩ t =
      .refuse (.unknownOperator t.value.plain) := by
    simp only [step]
    rw [afterOperand_within within, if_pos kind]
    simp only [continueWith, missing]
  have live : t.kind ≠ .ending := by simp [kind]
  simp only [Machine.run, machine, if_neg live, refused]

/-! ## Descents -/

/-- What the machine makes of the tokens of a descent, whatever is open around it. -/
def Simulates (table : OperatorTable) (routine : Routine) (tokens : List Token)
    (outcome : Except Fault Node) (rest : List Token) : Prop :=
  ∀ (bound : Bound) (frames : List Frame), match routine with
    | .operand => Unwinds table bound ⟨frames, .operand⟩ frames tokens outcome rest
    | .group => Unwinds table bound ⟨.group :: frames, .operand⟩ frames tokens outcome rest
    | .arguments callee args =>
      Unwinds table bound ⟨.call callee args :: frames, .operand⟩ frames tokens outcome rest
    | .expression => Shields bound 0 frames →
      Unwinds table bound ⟨frames, .operand⟩ frames tokens outcome rest
    | .operations least left => Shields bound least frames →
      Unwinds table bound ⟨frames, .complete left⟩ frames tokens outcome rest

theorem simulates_of_descends {routine : Routine} {tokens rest : List Token}
    {outcome : Except Fault Node} (descent : Descends table routine tokens outcome rest) :
    Simulates table routine tokens outcome rest := by
  -- The frames stay free, so that a descent within another one finds its own on top of them. Only a
  -- descent for operators has to be shielded; a parenthesis does that whatever is open outside.
  induction descent with
  | @number t rest x kind value =>
    intro bound frames
    exact run_takes (by simp [kind]) (.number (.inl rfl) kind value) rest
  | spoilt kind value =>
    intro bound frames
    exact run_spoilt kind value _
  | @reference t rest kind bare =>
    intro bound frames
    have named : Takes table bound ⟨frames, .operand⟩ t ⟨frames, .name t.value.plain⟩ :=
      .name (.inl rfl) kind
    exact (run_takes (by simp [kind]) named rest).trans (run_reference bare)
  | emptyCall kind opens closes =>
    intro bound frames
    exact (run_callee kind opens _).trans
      (run_takes (by simp [closes]) (.closeEmpty closes) _)
  | call kind opens nonempty _ ih =>
    intro bound frames
    exact ((run_callee kind opens _).trans (run_argument nonempty)).trans (ih bound frames)
  | nested opens _ ih =>
    intro bound frames
    exact (run_takes (by simp [opens]) (.group (.inl rfl) opens) _).trans (ih bound frames)
  | noOperand number name opening =>
    intro bound frames
    exact run_noOperand number name opening
  | groupFails _ ih =>
    intro bound frames
    exact ih bound (.group :: frames) trivial
  | closed _ closes ih =>
    intro bound frames
    exact (ih bound (.group :: frames) trivial).trans
      (run_takes (by simp [closes]) (.closeGroup rfl closes rfl) _)
  | unclosed inner other ih =>
    intro bound frames
    exact (ih bound (.group :: frames) trivial).trans (run_unclosed (inner.stops _ rfl) other)
  | @argumentFails callee args _ _ _ _ ih =>
    intro bound frames
    exact ih bound (.call callee args :: frames) trivial
  | @nextArgument callee args comma tokens middle _ e _ _ kind _ _ first others =>
    intro bound frames
    have separated : Takes table bound ⟨.call callee args :: frames, .complete e⟩ comma
        ⟨.call callee (args ++ [e]) :: frames, .operand⟩ := .comma rfl kind rfl
    calc (machine table bound).run ⟨.call callee args :: frames, .operand⟩ tokens
        = (machine table bound).run ⟨.call callee args :: frames, .complete e⟩ (comma :: middle) :=
          first bound (.call callee args :: frames) trivial
      _ = (machine table bound).run ⟨.call callee (args ++ [e]) :: frames, .operand⟩ middle :=
          run_takes (by simp [kind]) separated middle
      _ = _ := others bound frames
  | @lastArgument callee args _ _ _ _ _ closes ih =>
    intro bound frames
    exact (ih bound (.call callee args :: frames) trivial).trans
      (run_takes (by simp [closes]) (.closeCall rfl closes rfl) _)
  | @unclosedCall callee args _ _ _ inner comma closing ih =>
    intro bound frames
    exact (ih bound (.call callee args :: frames) trivial).trans
      (run_unclosedCall (inner.stops _ rfl) comma closing)
  | firstFails _ ih =>
    intro bound frames _
    exact ih bound frames
  | folded _ _ _ first others =>
    intro bound frames shields
    exact (first bound frames).trans (others bound frames shields)
  | rests => exact fun _ _ _ => rfl
  | looser => exact fun _ _ _ => rfl
  | unknown kind missing =>
    intro bound frames shields
    exact run_unknown shields.within kind missing
  | @rightFails _ left t tokens _ power _ kind known enough _ ih =>
    intro bound frames shields
    exact (run_operator shields kind known enough left tokens).trans
      (ih bound (.operation left t.value.plain power :: frames))
  | @tighterFails _ left right t tokens middle rest power fault kind known enough _ _ first
      second =>
    intro bound frames shields
    calc (machine table bound).run ⟨frames, .complete left⟩ (t :: tokens)
        = (machine table bound).run ⟨.operation left t.value.plain power :: frames, .operand⟩
            tokens := run_operator shields kind known enough left tokens
      _ = (machine table bound).run ⟨.operation left t.value.plain power :: frames,
            .complete right⟩ middle := first bound _
      _ = (.error fault, rest) :=
          second bound (.operation left t.value.plain power :: frames) (Int.lt_succ power)
  | @fold _ left right whole t tokens middle later _ power _ kind known enough _ tighter _ _ first
      second others =>
    intro bound frames shields
    calc (machine table bound).run ⟨frames, .complete left⟩ (t :: tokens)
        = (machine table bound).run ⟨.operation left t.value.plain power :: frames, .operand⟩
            tokens := run_operator shields kind known enough left tokens
      _ = (machine table bound).run ⟨.operation left t.value.plain power :: frames,
            .complete right⟩ middle := first bound _
      _ = (machine table bound).run ⟨.operation left t.value.plain power :: frames,
            .complete whole⟩ later :=
          second bound (.operation left t.value.plain power :: frames) (Int.lt_succ power)
      _ = (machine table bound).run ⟨frames, .complete (.binary t.value.plain left whole)⟩
            later := run_operation shields.within (tighter.stops _ rfl)
      _ = _ := others bound frames shields

theorem run_single (e : Node) (rest : List Token) :
    (machine table .none).run ⟨[], .complete e⟩ rest = (.ok e, rest) := by
  refine Machine.run_of_yields ?_
  cases rest with
  | nil => rfl
  | cons t rest =>
    simp only [Machine.Yields]
    split
    · rfl
    · rfl

theorem run_stopped {least : Int} {rest : List Token} (e : Node)
    (stops : Descends.StopsBelow table least rest) :
    (machine table (.atLeast least)).run ⟨[], .complete e⟩ rest = (.ok e, rest) := by
  refine Machine.run_of_yields ?_
  cases rest with
  | nil => rfl
  | cons t rest =>
    simp only [Machine.Yields]
    split
    · rfl
    · simp only [machine, step]
      rw [afterOperand_within (by simp)]
      split
      · next kind =>
        obtain ⟨power, known, below⟩ := stops t rfl kind
        simp only [continueWith, known, settle, if_pos below]
      · rfl

end Expression

/-- How far the machine is to read for a descent. -/
def Routine.bound : Routine → Bound
  | .expression => .atLeast 0
  | .operations least _ => .atLeast least
  | _ => .none

/-- Where the machine stands when a descent begins. -/
def Routine.reading : Routine → Reading
  | .operand => Expression.start
  | .group => ⟨[.group], .operand⟩
  | .arguments callee args => ⟨[.call callee args], .operand⟩
  | .expression => Expression.start
  | .operations _ left => ⟨[], .complete left⟩

section

variable {table : OperatorTable}

theorem run_of_descends {routine : Routine} {tokens rest : List Token}
    {outcome : Except Fault Node} (descent : Descends table routine tokens outcome rest) :
    (Expression.machine table routine.bound).run routine.reading tokens = (outcome, rest) := by
  have simulates := Expression.simulates_of_descends descent routine.bound []
  have left : ∀ e, outcome = .ok e →
      (Expression.machine table routine.bound).run ⟨[], .complete e⟩ rest = (.ok e, rest) := by
    intro e same
    cases routine with
    | expression =>
      exact Expression.run_stopped e (Descends.stopsBelow_of_other (descent.stops e same))
    | operations least left => exact Expression.run_stopped e (descent.stops e same)
    | _ => exact Expression.run_single e rest
  have unwinds : Expression.Unwinds table routine.bound routine.reading [] tokens outcome rest := by
    cases routine with
    | expression => exact simulates ⟨0, rfl, Int.le_refl 0⟩
    | operations least left => exact simulates ⟨least, rfl, Int.le_refl least⟩
    | _ => exact simulates
  cases outcome with
  | error fault => exact unwinds
  | ok e => exact unwinds.trans (left e rfl)

/-- A descent comes to the one outcome that the run of the machine comes to. -/
theorem descends_iff {routine : Routine} {tokens rest : List Token} {outcome : Except Fault Node} :
    Descends table routine tokens outcome rest ↔
      (Expression.machine table routine.bound).run routine.reading tokens = (outcome, rest) :=
  Machine.iff_run (fun _ _ descent => run_of_descends descent) (Descends.ends routine tokens)

end

end Formulary
