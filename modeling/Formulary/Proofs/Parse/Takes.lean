import Formulary.Parse.Expression
import Formulary.Proofs.Parse.Shifts

/-!
What reading an expression does with one token. Every shift of the machine is one of nine moves, and
it stops with a result exactly where an operand stands complete, no parenthesis is open around it
and the next token cannot carry it on.
-/
namespace Formulary

def Frame.isOperation : Frame → Bool
  | .operation _ _ _ => true
  | _ => false

/-- The open constructs from the innermost open parenthesis on. -/
def enclosing (frames : List Frame) : List Frame := frames.dropWhile Frame.isOperation

/-- The operand that stands complete at the place of reading. -/
def Focus.operand? : Focus → Option Node
  | .operand => none
  | .argument => none
  | .name text => some (.reference text)
  | .complete e => some e

theorem enclosing_operation (left : Node) (op : String) (power : Nat) (frames : List Frame) :
    enclosing (.operation left op power :: frames) = enclosing frames := rfl

theorem settle_zero_frames (frames : List Frame) (operand : Node) :
    (settle 0 frames operand).1 = enclosing frames := by
  induction frames generalizing operand with
  | nil => rfl
  | cons frame outer ih =>
    cases frame with
    | operation left op p =>
      simp only [settle, Nat.zero_le, if_true]
      rw [ih, enclosing_operation]
    | group => rfl
    | call callee args => rfl

namespace Expression

/-- The moves of the machine, one for each way to take a token. -/
inductive Takes (table : OperatorTable) (bound : Bound) : Reading → Token → Reading → Prop where
  | number {frames : List Frame} {focus : Focus} {t : Token} {x : Binary64}
      (ready : focus = .operand ∨ focus = .argument) (kind : t.kind = .number)
      (value : t.number? = .ok x) :
      Takes table bound ⟨frames, focus⟩ t ⟨frames, .complete (.literal x)⟩
  | name {frames : List Frame} {focus : Focus} {t : Token}
      (ready : focus = .operand ∨ focus = .argument) (kind : t.kind = .name) :
      Takes table bound ⟨frames, focus⟩ t ⟨frames, .name t.value.plain⟩
  | group {frames : List Frame} {focus : Focus} {t : Token}
      (ready : focus = .operand ∨ focus = .argument) (kind : t.kind = .opening) :
      Takes table bound ⟨frames, focus⟩ t ⟨.group :: frames, .operand⟩
  | call {frames : List Frame} {name : String} {t : Token} (kind : t.kind = .opening) :
      Takes table bound ⟨frames, .name name⟩ t ⟨.call name [] :: frames, .argument⟩
  | closeEmpty {callee : String} {args : List Node} {outer : List Frame} {t : Token}
      (kind : t.kind = .closing) :
      Takes table bound ⟨.call callee args :: outer, .argument⟩ t
        ⟨outer, .complete (.call callee args)⟩
  | operator {frames inner : List Frame} {focus : Focus} {operand left : Node} {t : Token}
      {power : Nat} (complete : focus.operand? = some operand) (kind : t.kind = .operator)
      (known : table.powerOf? t.value.plain = some power)
      (settled : settle power frames operand = (inner, left))
      (within : frames = [] → bound ≠ .none)
      (enough : inner = [] → ∀ least, bound = .atLeast least → least ≤ (power : Int)) :
      Takes table bound ⟨frames, focus⟩ t ⟨.operation left t.value.plain power :: inner, .operand⟩
  | comma {frames outer : List Frame} {focus : Focus} {operand arg : Node} {callee : String}
      {args : List Node} {t : Token} (complete : focus.operand? = some operand)
      (kind : t.kind = .comma) (settled : settle 0 frames operand = (.call callee args :: outer, arg)) :
      Takes table bound ⟨frames, focus⟩ t ⟨.call callee (args ++ [arg]) :: outer, .operand⟩
  | closeCall {frames outer : List Frame} {focus : Focus} {operand arg : Node} {callee : String}
      {args : List Node} {t : Token} (complete : focus.operand? = some operand)
      (kind : t.kind = .closing)
      (settled : settle 0 frames operand = (.call callee args :: outer, arg)) :
      Takes table bound ⟨frames, focus⟩ t ⟨outer, .complete (.call callee (args ++ [arg]))⟩
  | closeGroup {frames outer : List Frame} {focus : Focus} {operand inner : Node} {t : Token}
      (complete : focus.operand? = some operand) (kind : t.kind = .closing)
      (settled : settle 0 frames operand = (.group :: outer, inner)) :
      Takes table bound ⟨frames, focus⟩ t ⟨outer, .complete inner⟩

variable {table : OperatorTable} {bound : Bound}

theorem beginOperand_takes {frames : List Frame} {focus : Focus} {t : Token} {next : Reading}
    (ready : focus = .operand ∨ focus = .argument)
    (move : beginOperand frames t = .shift next) : Takes table bound ⟨frames, focus⟩ t next := by
  unfold beginOperand at move
  split at move
  · next kind =>
    split at move
    · next x value =>
      obtain rfl := Move.shift.inj move
      exact .number ready kind value
    · simp at move
  · next kind =>
    obtain rfl := Move.shift.inj move
    exact .name ready kind
  · next kind =>
    obtain rfl := Move.shift.inj move
    exact .group ready kind
  · simp at move

theorem continueWith_takes {frames : List Frame} {focus : Focus} {operand : Node} {t : Token}
    {next : Reading} (complete : focus.operand? = some operand) (kind : t.kind = .operator)
    (within : frames = [] → bound ≠ .none)
    (move : continueWith table bound frames operand t = .shift next) :
    Takes table bound ⟨frames, focus⟩ t next := by
  unfold continueWith at move
  split at move
  · simp at move
  · next power known =>
    split at move
    · next left least settled =>
      split at move
      · simp at move
      · next enough =>
        obtain rfl := Move.shift.inj move
        refine .operator complete kind known settled within ?_
        intro _ other same
        obtain rfl := Bound.atLeast.inj same
        omega
    · next inner left settled other =>
      obtain rfl := Move.shift.inj move
      refine .operator complete kind known settled within ?_
      intro empty least same
      subst empty same
      exact absurd rfl (other least rfl)

theorem close_takes {frames : List Frame} {focus : Focus} {operand : Node} {t : Token}
    {next : Reading} (complete : focus.operand? = some operand)
    (move : close frames operand t = .shift next) : Takes table bound ⟨frames, focus⟩ t next := by
  unfold close at move
  split at move
  · next outer inner settled =>
    split at move
    · next kind =>
      obtain rfl := Move.shift.inj move
      exact .closeGroup complete kind settled
    · simp at move
  · next callee args outer arg settled =>
    split at move
    · next kind =>
      obtain rfl := Move.shift.inj move
      exact .comma complete kind settled
    · next kind =>
      obtain rfl := Move.shift.inj move
      exact .closeCall complete kind settled
    · simp at move
  · simp at move

theorem afterOperand_takes {frames : List Frame} {focus : Focus} {operand : Node} {t : Token}
    {next : Reading} (complete : focus.operand? = some operand)
    (move : afterOperand table bound frames operand t = .shift next) :
    Takes table bound ⟨frames, focus⟩ t next := by
  unfold afterOperand at move
  split at move
  · simp at move
  · next inside =>
    split at move
    · next kind =>
      exact continueWith_takes complete kind (fun empty none => inside empty none) move
    · exact close_takes complete move

theorem takes_of_step {r next : Reading} {t : Token} (move : step table bound r t = .shift next) :
    Takes table bound r t next := by
  obtain ⟨frames, focus⟩ := r
  cases focus with
  | operand => exact beginOperand_takes (.inl rfl) move
  | argument =>
    simp only [step] at move
    split at move
    · split at move
      · next kind =>
        obtain rfl := Move.shift.inj move
        exact .closeEmpty kind
      · exact beginOperand_takes (.inr rfl) move
    · exact beginOperand_takes (.inr rfl) move
  | name text =>
    simp only [step] at move
    split at move
    · next kind =>
      obtain rfl := Move.shift.inj move
      exact .call kind
    · exact afterOperand_takes rfl move
  | complete operand => exact afterOperand_takes rfl move

theorem step_complete {frames : List Frame} {focus : Focus} {operand : Node} {t : Token}
    (complete : focus.operand? = some operand) (kind : t.kind ≠ .opening) :
    step table bound ⟨frames, focus⟩ t = afterOperand table bound frames operand t := by
  cases focus with
  | operand => simp [Focus.operand?] at complete
  | argument => simp [Focus.operand?] at complete
  | name text =>
    obtain rfl := Option.some.inj complete
    simp only [step, if_neg kind]
  | complete e =>
    obtain rfl := Option.some.inj complete
    rfl

theorem afterOperand_within {frames : List Frame} {operand : Node} {t : Token}
    (within : frames = [] → bound ≠ .none) :
    afterOperand table bound frames operand t =
      if t.kind = .operator then continueWith table bound frames operand t
      else close frames operand t := by
  unfold afterOperand
  split
  · exact absurd rfl (within rfl)
  · rfl

theorem within_of_settle {frames outer : List Frame} {frame : Frame} {power : Nat}
    {operand whole : Node} (settled : settle power frames operand = (frame :: outer, whole)) :
    frames = [] → bound ≠ .none := by
  rintro rfl
  simp [settle] at settled

theorem step_of_takes {r next : Reading} {t : Token} (takes : Takes table bound r t next) :
    step table bound r t = .shift next := by
  cases takes with
  | number ready kind value =>
    rcases ready with rfl | rfl
    · simp only [step, beginOperand, kind, value]
    · simp only [step]
      split <;> simp [beginOperand, kind, value]
  | name ready kind =>
    rcases ready with rfl | rfl
    · simp only [step, beginOperand, kind]
    · simp only [step]
      split <;> simp [beginOperand, kind]
  | group ready kind =>
    rcases ready with rfl | rfl
    · simp only [step, beginOperand, kind]
    · simp only [step]
      split <;> simp [beginOperand, kind]
  | call kind => simp only [step, kind, if_true]
  | closeEmpty kind => simp only [step, kind, if_true]
  | @operator frames inner focus operand left t power complete kind known settled within enough =>
    rw [step_complete complete (by simp [kind]), afterOperand_within within, if_pos kind]
    unfold continueWith
    simp only [known, settled]
    cases inner with
    | nil =>
      cases bound with
      | none => rfl
      | atLeast least => simp only [if_neg (Int.not_lt.mpr (enough rfl least rfl))]
    | cons frame inner => rfl
  | comma complete kind settled =>
    rw [step_complete complete (by simp [kind]), afterOperand_within (within_of_settle settled),
      if_neg (by simp [kind])]
    simp only [close, settled, kind]
  | closeCall complete kind settled =>
    rw [step_complete complete (by simp [kind]), afterOperand_within (within_of_settle settled),
      if_neg (by simp [kind])]
    simp only [close, settled, kind]
  | closeGroup complete kind settled =>
    rw [step_complete complete (by simp [kind]), afterOperand_within (within_of_settle settled),
      if_neg (by simp [kind])]
    simp only [close, settled, kind]

theorem step_eq_shift_iff {r next : Reading} {t : Token} :
    step table bound r t = .shift next ↔ Takes table bound r t next :=
  ⟨takes_of_step, step_of_takes⟩

theorem takes_operand_kind {frames : List Frame} {t : Token} {next : Reading}
    (takes : Takes table bound ⟨frames, .operand⟩ t next) :
    t.kind = .number ∨ t.kind = .name ∨ t.kind = .opening := by
  cases takes with
  | number _ kind => exact .inl kind
  | name _ kind => exact .inr (.inl kind)
  | group _ kind => exact .inr (.inr kind)
  | operator complete => simp [Focus.operand?] at complete
  | comma complete => simp [Focus.operand?] at complete
  | closeCall complete => simp [Focus.operand?] at complete
  | closeGroup complete => simp [Focus.operand?] at complete

theorem takes_argument {frames : List Frame} {t : Token} {next : Reading}
    (takes : Takes table bound ⟨frames, .operand⟩ t next) :
    Takes table bound ⟨frames, .argument⟩ t next := by
  cases takes with
  | number _ kind value => exact .number (.inr rfl) kind value
  | name _ kind => exact .name (.inr rfl) kind
  | group _ kind => exact .group (.inr rfl) kind
  | operator complete => simp [Focus.operand?] at complete
  | comma complete => simp [Focus.operand?] at complete
  | closeCall complete => simp [Focus.operand?] at complete
  | closeGroup complete => simp [Focus.operand?] at complete

end Expression

/-- The reading may end here, with this expression. -/
def Reading.Completes (r : Reading) (e : Node) : Prop :=
  ∃ operand, r.focus.operand? = some operand ∧ settle 0 r.frames operand = ([], e)

/-- A token that no operand, once complete, can be carried on by. -/
def Reading.Stops (r : Reading) (t : Token) : Prop :=
  t.kind ≠ .operator ∧ (t.kind = .opening → ∀ name, r.focus ≠ .name name)

namespace Expression

variable {table : OperatorTable}

theorem atEnd_eq_ok_iff {r : Reading} {e : Node} : atEnd r = .ok e ↔ r.Completes e := by
  obtain ⟨frames, focus⟩ := r
  cases focus with
  | operand => simp [atEnd, Reading.Completes, Focus.operand?]
  | argument => simp [atEnd, Reading.Completes, Focus.operand?]
  | name text =>
    simp only [atEnd, Reading.Completes, Focus.operand?, Option.some.injEq, exists_eq_left']
    rcases settle 0 frames (.reference text) with ⟨_ | ⟨frame, outer⟩, whole⟩ <;> simp
  | complete operand =>
    simp only [atEnd, Reading.Completes, Focus.operand?, Option.some.injEq, exists_eq_left']
    rcases settle 0 frames operand with ⟨_ | ⟨frame, outer⟩, whole⟩ <;> simp

theorem settled_head {frames outer : List Frame} {frame : Frame} {operand whole : Node}
    (settled : settle 0 frames operand = (frame :: outer, whole)) : frame.isOperation = false := by
  have head := List.head?_dropWhile_not Frame.isOperation frames
  have bracket := settle_zero_frames frames operand
  rw [settled] at bracket
  rw [← enclosing, ← bracket] at head
  simpa using head

theorem close_eq_finish_iff {frames : List Frame} {operand e : Node} {t : Token} :
    close frames operand t = .finish e ↔ settle 0 frames operand = ([], e) := by
  unfold close
  rcases settled : settle 0 frames operand with ⟨_ | ⟨frame, outer⟩, whole⟩
  · simp
  · cases frame with
    | operation left op power => exact absurd (settled_head settled) (by simp [Frame.isOperation])
    | group => dsimp only; split <;> simp
    | call callee args => dsimp only; split <;> simp

theorem continueWith_ne_finish {frames : List Frame} {operand e : Node} {t : Token} :
    continueWith table (.atLeast 0) frames operand t ≠ .finish e := by
  unfold continueWith
  split
  · simp
  · split
    · next left least settled same =>
      obtain rfl := Bound.atLeast.inj same
      split
      · omega
      · simp
    · simp

theorem afterOperand_eq_finish_iff {frames : List Frame} {operand e : Node} {t : Token} :
    afterOperand table (.atLeast 0) frames operand t = .finish e ↔
      settle 0 frames operand = ([], e) ∧ t.kind ≠ .operator := by
  rw [afterOperand_within (by simp)]
  split
  · next kind => simp [continueWith_ne_finish, kind]
  · next kind => simp [close_eq_finish_iff, kind]

theorem beginOperand_ne_finish {frames : List Frame} {e : Node} {t : Token} :
    beginOperand frames t ≠ .finish e := by
  unfold beginOperand
  split
  · split <;> simp
  · simp
  · simp
  · simp

theorem step_eq_finish_iff {r : Reading} {t : Token} {e : Node} :
    step table (.atLeast 0) r t = .finish e ↔ r.Completes e ∧ r.Stops t := by
  obtain ⟨frames, focus⟩ := r
  cases focus with
  | operand => simp [step, beginOperand_ne_finish, Reading.Completes, Focus.operand?]
  | argument =>
    simp only [step, Reading.Completes, Focus.operand?]
    split
    · split <;> simp [beginOperand_ne_finish]
    · simp [beginOperand_ne_finish]
  | name text =>
    simp only [step, Reading.Completes, Reading.Stops, Focus.operand?]
    split
    · next kind => simp [kind]
    · next kind => simp [afterOperand_eq_finish_iff, kind]
  | complete operand =>
    simp [step, afterOperand_eq_finish_iff, Reading.Completes, Reading.Stops, Focus.operand?]

end Expression

end Formulary
