import Formulary.Proofs.Parse.Takes

/-!
Renderings of expressions as tokens. An operand of an operation may stand without parentheses if
its own operator binds at least as tightly, on the left, or more tightly, on the right; any
expression may stand in any number of parentheses. From any place where an operand may stand, the
machine shifts a rendering and then holds its expression.
-/
namespace Formulary

/-- A token of some kind and value, wherever it stands. -/
def Token.Carries (t : Token) (kind : TokenKind) (value : TokenValue) : Prop :=
  t.kind = kind ∧ t.value = value

theorem Token.Carries.plain {t : Token} {kind : TokenKind} {s : String}
    (token : t.Carries kind (.text s)) : t.value.plain = s := by
  rw [token.2, TokenValue.plain]

/-- What a run of tokens stands for. The loosest power of an expression is that of its outermost
operator, unless parentheses enclose that. -/
inductive Phrase where
  | expression (e : Node) (loosest : Option Nat)
  | arguments (args : List Node)

inductive Renders (table : OperatorTable) : Phrase → List Token → Prop where
  | number {x : Binary64} {t : Token} (token : t.Carries .number (.number x)) :
      Renders table (.expression (.literal x) none) [t]
  | reference {name : String} {t : Token} (token : t.Carries .name (.text name)) :
      Renders table (.expression (.reference name) none) [t]
  | call {callee : String} {args : List Node} {t opening closing : Token} {w : List Token}
      (token : t.Carries .name (.text callee)) (opens : opening.kind = .opening)
      (inner : Renders table (.arguments args) w) (closes : closing.kind = .closing) :
      Renders table (.expression (.call callee args) none) (t :: opening :: (w ++ [closing]))
  | binary {op : String} {power : Nat} {left right : Node} {a b : Option Nat} {t : Token}
      {v w : List Token} (token : t.Carries .operator (.text op))
      (known : table.powerOf? op = some power) (first : Renders table (.expression left a) v)
      (leftBinds : ∀ p ∈ a, power ≤ p) (second : Renders table (.expression right b) w)
      (rightBinds : ∀ p ∈ b, power < p) :
      Renders table (.expression (.binary op left right) (some power)) (v ++ t :: w)
  | group {e : Node} {a : Option Nat} {opening closing : Token} {w : List Token}
      (opens : opening.kind = .opening) (inner : Renders table (.expression e a) w)
      (closes : closing.kind = .closing) :
      Renders table (.expression e none) (opening :: (w ++ [closing]))
  | noArguments : Renders table (.arguments []) []
  | argument {e : Node} {a : Option Nat} {w : List Token}
      (only : Renders table (.expression e a) w) : Renders table (.arguments [e]) w
  | moreArguments {e next : Node} {args : List Node} {a : Option Nat} {comma : Token}
      {v w : List Token} (first : Renders table (.expression e a) v) (kind : comma.kind = .comma)
      (rest : Renders table (.arguments (next :: args)) w) :
      Renders table (.arguments (e :: next :: args)) (v ++ comma :: w)

/-- The reading holds an expression in front of the frames given: closing the operations that are
open around the operand gives the same as if the expression stood there whole. -/
def Reading.Holds (r : Reading) (outer : List Frame) (e : Node) (loosest : Option Nat) : Prop :=
  ∃ operand, r.focus.operand? = some operand ∧
    ∀ q, (∀ p ∈ loosest, q ≤ p) → settle q r.frames operand = settle q outer e

/-- An operator of this power closes nothing of what is open. -/
def LeavesOpen (power : Nat) : List Frame → Prop
  | .operation _ _ p :: _ => p < power
  | _ => True

theorem leavesOpen_mono {low high : Nat} {frames : List Frame} (le : low ≤ high)
    (loose : LeavesOpen low frames) : LeavesOpen high frames := by
  unfold LeavesOpen at loose ⊢
  split
  · exact Nat.lt_of_lt_of_le loose le
  · trivial

theorem settle_leavesOpen {power : Nat} {frames : List Frame} (loose : LeavesOpen power frames)
    (operand : Node) : settle power frames operand = (frames, operand) := by
  cases frames with
  | nil => rfl
  | cons frame outer =>
    cases frame with
    | operation left op p => simp only [settle, if_neg (Nat.not_le.mpr loose)]
    | group => rfl
    | call callee args => rfl

theorem holds_operand {focus : Focus} {e : Node} (complete : focus.operand? = some e)
    (outer : List Frame) : Reading.Holds ⟨outer, focus⟩ outer e none :=
  ⟨e, complete, fun _ _ => rfl⟩

namespace Expression

variable {table : OperatorTable}

abbrev whole (table : OperatorTable) : Machine Reading Fault Node := machine table (.atLeast 0)

theorem shifts_takes {r next : Reading} {t : Token} (live : t.kind ≠ .ending)
    (takes : Takes table (.atLeast 0) r t next) : (whole table).Shifts r [t] next :=
  .cons live (step_of_takes takes) (.nil next)

theorem shifts_argument {frames : List Frame} {t : Token} {w : List Token} {last : Reading}
    (shifts : (whole table).Shifts ⟨frames, .operand⟩ (t :: w) last) :
    (whole table).Shifts ⟨frames, .argument⟩ (t :: w) last := by
  cases shifts with
  | @cons _ next _ _ _ live move tail =>
    have takes : Takes table (.atLeast 0) ⟨frames, .operand⟩ t next := takes_of_step move
    exact .cons live (step_of_takes (takes_argument takes)) tail

theorem shifts_operator {r : Reading} {outer : List Frame} {left : Node} {loosest : Option Nat}
    {op : String} {power : Nat} {t : Token} (holds : r.Holds outer left loosest)
    (leftBinds : ∀ p ∈ loosest, power ≤ p) (loose : LeavesOpen power outer)
    (token : t.Carries .operator (.text op)) (known : table.powerOf? op = some power) :
    (whole table).Shifts r [t] ⟨.operation left op power :: outer, .operand⟩ := by
  obtain ⟨frames, focus⟩ := r
  obtain ⟨operand, complete, settled⟩ := holds
  have same := token.plain
  obtain ⟨kind, _⟩ := token
  have all := (settled power leftBinds).trans (settle_leavesOpen loose left)
  subst same
  refine shifts_takes (by simp [kind]) (.operator complete kind known all (by simp) ?_)
  intro _ least bound
  obtain rfl := Bound.atLeast.inj bound
  omega

theorem shifts_group {r : Reading} {outer : List Frame} {e : Node} {loosest : Option Nat}
    {t : Token} (holds : r.Holds (.group :: outer) e loosest) (kind : t.kind = .closing) :
    (whole table).Shifts r [t] ⟨outer, .complete e⟩ := by
  obtain ⟨operand, complete, settled⟩ := holds
  exact shifts_takes (by simp [kind])
    (.closeGroup complete kind (settled 0 fun _ _ => Nat.zero_le _))

theorem shifts_comma {r : Reading} {outer : List Frame} {callee : String} {args : List Node}
    {e : Node} {loosest : Option Nat} {t : Token}
    (holds : r.Holds (.call callee args :: outer) e loosest) (kind : t.kind = .comma) :
    (whole table).Shifts r [t] ⟨.call callee (args ++ [e]) :: outer, .operand⟩ := by
  obtain ⟨operand, complete, settled⟩ := holds
  exact shifts_takes (by simp [kind])
    (.comma complete kind (settled 0 fun _ _ => Nat.zero_le _))

theorem shifts_closeCall {r : Reading} {outer : List Frame} {callee : String} {args : List Node}
    {e : Node} {loosest : Option Nat} {t : Token}
    (holds : r.Holds (.call callee args :: outer) e loosest) (kind : t.kind = .closing) :
    (whole table).Shifts r [t] ⟨outer, .complete (.call callee (args ++ [e]))⟩ := by
  obtain ⟨operand, complete, settled⟩ := holds
  exact shifts_takes (by simp [kind])
    (.closeCall complete kind (settled 0 fun _ _ => Nat.zero_le _))

/-- What the machine does with the tokens of a phrase: from where an operand may stand it gets to
hold an expression, and from inside a call it gets to the end of that. -/
def Reads (table : OperatorTable) : Phrase → List Token → Prop
  | .expression e loosest, w =>
    ∀ outer : List Frame, (∀ p ∈ loosest, LeavesOpen p outer) →
      ∃ r : Reading, (whole table).Shifts ⟨outer, .operand⟩ w r ∧ r.Holds outer e loosest
  | .arguments args, w =>
    ∀ (callee : String) (done : List Node) (outer : List Frame) (closing : Token),
      args ≠ [] → closing.kind = .closing →
        (whole table).Shifts ⟨.call callee done :: outer, .operand⟩ (w ++ [closing])
          ⟨outer, .complete (.call callee (done ++ args))⟩

theorem reads_call {callee : String} {args : List Node} {t opening closing : Token}
    {w : List Token} (token : t.Carries .name (.text callee)) (opens : opening.kind = .opening)
    (inner : Renders table (.arguments args) w) (reads : Reads table (.arguments args) w)
    (closes : closing.kind = .closing) :
    Reads table (.expression (.call callee args) none) (t :: opening :: (w ++ [closing])) := by
  have kind := token.1
  intro outer _
  have named : Takes table (.atLeast 0) ⟨outer, .operand⟩ t ⟨outer, .name callee⟩ :=
    token.plain ▸ .name (.inl rfl) kind
  have opened : (whole table).Shifts ⟨outer, .operand⟩ [t, opening]
      ⟨.call callee [] :: outer, .argument⟩ :=
    (shifts_takes (by simp [kind]) named).append (shifts_takes (by simp [opens]) (.call opens))
  refine ⟨⟨outer, .complete (.call callee args)⟩, ?_, holds_operand rfl outer⟩
  refine opened.append (w := w ++ [closing]) ?_
  cases args with
  | nil =>
    cases inner
    exact shifts_takes (by simp [closes]) (.closeEmpty closes)
  | cons first rest =>
    have shifts := reads callee [] outer closing (by simp) closes
    obtain ⟨head, tail, same⟩ := List.exists_cons_of_ne_nil (l := w ++ [closing]) (by simp)
    rw [same] at shifts ⊢
    exact shifts_argument shifts

theorem reads_binary {op : String} {power : Nat} {left right : Node} {a b : Option Nat}
    {t : Token} {v w : List Token} (token : t.Carries .operator (.text op))
    (known : table.powerOf? op = some power) (first : Reads table (.expression left a) v)
    (leftBinds : ∀ p ∈ a, power ≤ p) (second : Reads table (.expression right b) w)
    (rightBinds : ∀ p ∈ b, power < p) :
    Reads table (.expression (.binary op left right) (some power)) (v ++ t :: w) := by
  intro outer loose
  have here := loose power rfl
  obtain ⟨r, shiftsLeft, holdsLeft⟩ :=
    first outer fun p member => leavesOpen_mono (leftBinds p member) here
  obtain ⟨r', shiftsRight, operand, complete, settled⟩ :=
    second (.operation left op power :: outer) rightBinds
  refine ⟨r', ?_, operand, complete, ?_⟩
  · exact shiftsLeft.append
      ((shifts_operator holdsLeft leftBinds here token known).append shiftsRight)
  · intro q below
    have tight : q ≤ power := below power rfl
    rw [settled q fun p member => Nat.le_of_lt (Nat.lt_of_le_of_lt tight (rightBinds p member))]
    simp only [settle, if_pos tight]

theorem reads_group {e : Node} {a : Option Nat} {opening closing : Token} {w : List Token}
    (opens : opening.kind = .opening) (inner : Reads table (.expression e a) w)
    (closes : closing.kind = .closing) :
    Reads table (.expression e none) (opening :: (w ++ [closing])) := by
  intro outer _
  obtain ⟨r, shifts, holds⟩ := inner (.group :: outer) fun _ _ => trivial
  have opened : (whole table).Shifts ⟨outer, .operand⟩ [opening] ⟨.group :: outer, .operand⟩ :=
    shifts_takes (by simp [opens]) (.group (.inl rfl) opens)
  exact ⟨⟨outer, .complete e⟩, opened.append (shifts.append (shifts_group holds closes)),
    holds_operand rfl outer⟩

theorem reads_of_renders {phrase : Phrase} {w : List Token} (rendering : Renders table phrase w) :
    Reads table phrase w := by
  induction rendering with
  | @number x t token =>
    obtain ⟨kind, value⟩ := token
    intro outer _
    have takes : Takes table (.atLeast 0) ⟨outer, .operand⟩ t ⟨outer, .complete (.literal x)⟩ :=
      .number (.inl rfl) kind (by rw [Token.number?, value])
    exact ⟨_, shifts_takes (by simp [kind]) takes, holds_operand rfl outer⟩
  | @reference name t token =>
    have kind := token.1
    intro outer _
    have takes : Takes table (.atLeast 0) ⟨outer, .operand⟩ t ⟨outer, .name t.value.plain⟩ :=
      .name (.inl rfl) kind
    refine ⟨_, shifts_takes (by simp [kind]) takes, holds_operand ?_ outer⟩
    rw [token.plain, Focus.operand?]
  | call token opens inner closes ih => exact reads_call token opens inner ih closes
  | binary token known _ leftBinds _ rightBinds first second =>
    exact reads_binary token known first leftBinds second rightBinds
  | group opens _ closes ih => exact reads_group opens ih closes
  | noArguments =>
    intro callee done outer closing nonempty
    exact absurd rfl nonempty
  | argument _ ih =>
    intro callee done outer closing _ closes
    obtain ⟨r, shifts, holds⟩ := ih (.call callee done :: outer) fun _ _ => trivial
    exact shifts.append (shifts_closeCall holds closes)
  | @moreArguments e next args a comma v w _ kind _ first rest =>
    intro callee done outer closing _ closes
    obtain ⟨r, shifts, holds⟩ := first (.call callee done :: outer) fun _ _ => trivial
    have others := rest callee (done ++ [e]) outer closing (by simp) closes
    have all := shifts.append ((shifts_comma holds kind).append others)
    simpa using all

theorem renders_head {e : Node} {loosest : Option Nat} {t : Token} {w : List Token}
    (rendering : Renders table (.expression e loosest) (t :: w)) :
    t.kind = .number ∨ t.kind = .name ∨ t.kind = .opening := by
  obtain ⟨r, shifts, _⟩ := reads_of_renders rendering [] fun _ _ => trivial
  cases shifts with
  | @cons _ next _ _ _ live move tail =>
    have takes : Takes table (.atLeast 0) ⟨[], .operand⟩ t next := takes_of_step move
    exact takes_operand_kind takes

end Expression

end Formulary
