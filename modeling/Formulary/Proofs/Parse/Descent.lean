import Formulary.Parse.Expression

/-!
Expressions read by descent. An operand may hold further expressions, the arguments of a call and
the operators behind an operand are read in rounds, and a tighter operator is left to a descent of
its own. Every descent comes to an outcome, since no round and no operand leaves as much as there
was in front of it.
-/
namespace Formulary

/-- What comes next; beyond the list, that is the end of the input. -/
def nextKind : List Token → TokenKind
  | [] => .ending
  | t :: _ => t.kind

/-- What is reported where the next token may not stand. -/
def faultAt : List Token → Fault
  | [] => .unexpectedEnd
  | t :: _ => if t.kind = .ending then .unexpectedEnd else .unexpectedToken t

/-- What a descent is for. -/
inductive Routine where
  | operand
  /-- An expression, behind the parenthesis that opens it, and the one that closes it. -/
  | group
  /-- At least one argument more, and the parenthesis that closes the call. -/
  | arguments (callee : String) (args : List Node)
  | expression
  /-- Operators of at least a power, with their right operands. -/
  | operations (least : Int) (left : Node)
  deriving Repr

/-- `Descends table routine tokens outcome rest`: the outcome, and the tokens that are left. The rules
that begin a further round require that it begins with fewer tokens than the round before. -/
inductive Descends (table : OperatorTable) :
    Routine → List Token → Except Fault Node → List Token → Prop where
  | number {t : Token} {rest : List Token} {x : Binary64} (kind : t.kind = .number)
      (value : t.number? = .ok x) : Descends table .operand (t :: rest) (.ok (.literal x)) rest
  | spoilt {t : Token} {rest : List Token} {fault : Fault} (kind : t.kind = .number)
      (value : t.number? = .error fault) : Descends table .operand (t :: rest) (.error fault) rest
  | reference {t : Token} {rest : List Token} (kind : t.kind = .name)
      (bare : nextKind rest ≠ .opening) :
      Descends table .operand (t :: rest) (.ok (.reference t.value.plain)) rest
  | emptyCall {t opening closing : Token} {rest : List Token} (kind : t.kind = .name)
      (opens : opening.kind = .opening) (closes : closing.kind = .closing) :
      Descends table .operand (t :: opening :: closing :: rest) (.ok (.call t.value.plain [])) rest
  | call {t opening : Token} {tokens rest : List Token} {outcome : Except Fault Node}
      (kind : t.kind = .name) (opens : opening.kind = .opening)
      (nonempty : nextKind tokens ≠ .closing)
      (inner : Descends table (.arguments t.value.plain []) tokens outcome rest) :
      Descends table .operand (t :: opening :: tokens) outcome rest
  | nested {opening : Token} {tokens rest : List Token} {outcome : Except Fault Node}
      (opens : opening.kind = .opening) (inner : Descends table .group tokens outcome rest) :
      Descends table .operand (opening :: tokens) outcome rest
  | noOperand {tokens : List Token} (number : nextKind tokens ≠ .number)
      (name : nextKind tokens ≠ .name) (opening : nextKind tokens ≠ .opening) :
      Descends table .operand tokens (.error (faultAt tokens)) tokens
  | groupFails {tokens rest : List Token} {fault : Fault}
      (inner : Descends table .expression tokens (.error fault) rest) :
      Descends table .group tokens (.error fault) rest
  | closed {closing : Token} {tokens rest : List Token} {e : Node}
      (inner : Descends table .expression tokens (.ok e) (closing :: rest))
      (closes : closing.kind = .closing) : Descends table .group tokens (.ok e) rest
  | unclosed {tokens rest : List Token} {e : Node}
      (inner : Descends table .expression tokens (.ok e) rest)
      (other : nextKind rest ≠ .closing) :
      Descends table .group tokens (.error (faultAt rest)) rest
  | argumentFails {callee : String} {args : List Node} {tokens rest : List Token} {fault : Fault}
      (inner : Descends table .expression tokens (.error fault) rest) :
      Descends table (.arguments callee args) tokens (.error fault) rest
  | nextArgument {callee : String} {args : List Node} {comma : Token}
      {tokens middle rest : List Token} {e : Node} {outcome : Except Fault Node}
      (inner : Descends table .expression tokens (.ok e) (comma :: middle))
      (kind : comma.kind = .comma) (progress : middle.length < tokens.length)
      (others : Descends table (.arguments callee (args ++ [e])) middle outcome rest) :
      Descends table (.arguments callee args) tokens outcome rest
  | lastArgument {callee : String} {args : List Node} {closing : Token} {tokens rest : List Token}
      {e : Node} (inner : Descends table .expression tokens (.ok e) (closing :: rest))
      (closes : closing.kind = .closing) :
      Descends table (.arguments callee args) tokens (.ok (.call callee (args ++ [e]))) rest
  | unclosedCall {callee : String} {args : List Node} {tokens rest : List Token} {e : Node}
      (inner : Descends table .expression tokens (.ok e) rest)
      (comma : nextKind rest ≠ .comma) (closing : nextKind rest ≠ .closing) :
      Descends table (.arguments callee args) tokens (.error (faultAt rest)) rest
  | firstFails {tokens rest : List Token} {fault : Fault}
      (first : Descends table .operand tokens (.error fault) rest) :
      Descends table .expression tokens (.error fault) rest
  | folded {tokens middle rest : List Token} {left : Node} {outcome : Except Fault Node}
      (first : Descends table .operand tokens (.ok left) middle)
      (progress : middle.length < tokens.length)
      (others : Descends table (.operations 0 left) middle outcome rest) :
      Descends table .expression tokens outcome rest
  | rests {least : Int} {left : Node} {tokens : List Token} (other : nextKind tokens ≠ .operator) :
      Descends table (.operations least left) tokens (.ok left) tokens
  | looser {least : Int} {left : Node} {t : Token} {tokens : List Token} {power : Nat}
      (kind : t.kind = .operator) (known : table.powerOf? t.value.plain = some power)
      (below : (power : Int) < least) :
      Descends table (.operations least left) (t :: tokens) (.ok left) (t :: tokens)
  | unknown {least : Int} {left : Node} {t : Token} {tokens : List Token}
      (kind : t.kind = .operator) (missing : table.powerOf? t.value.plain = none) :
      Descends table (.operations least left) (t :: tokens)
        (.error (.unknownOperator t.value.plain)) (t :: tokens)
  | rightFails {least : Int} {left : Node} {t : Token} {tokens rest : List Token} {power : Nat}
      {fault : Fault} (kind : t.kind = .operator)
      (known : table.powerOf? t.value.plain = some power) (enough : least ≤ (power : Int))
      (operand : Descends table .operand tokens (.error fault) rest) :
      Descends table (.operations least left) (t :: tokens) (.error fault) rest
  | tighterFails {least : Int} {left right : Node} {t : Token} {tokens middle rest : List Token}
      {power : Nat} {fault : Fault} (kind : t.kind = .operator)
      (known : table.powerOf? t.value.plain = some power) (enough : least ≤ (power : Int))
      (operand : Descends table .operand tokens (.ok right) middle)
      (tighter : Descends table (.operations (power + 1) right) middle (.error fault) rest) :
      Descends table (.operations least left) (t :: tokens) (.error fault) rest
  | fold {least : Int} {left right whole : Node} {t : Token}
      {tokens middle later rest : List Token} {power : Nat} {outcome : Except Fault Node}
      (kind : t.kind = .operator) (known : table.powerOf? t.value.plain = some power)
      (enough : least ≤ (power : Int))
      (operand : Descends table .operand tokens (.ok right) middle)
      (tighter : Descends table (.operations (power + 1) right) middle (.ok whole) later)
      (progress : later.length < (t :: tokens).length)
      (others : Descends table (.operations least (.binary t.value.plain left whole)) later
        outcome rest) :
      Descends table (.operations least left) (t :: tokens) outcome rest

namespace Descends

variable {table : OperatorTable}

/-! ## What is left -/

theorem suffix {routine : Routine} {tokens rest : List Token} {outcome : Except Fault Node}
    (descent : Descends table routine tokens outcome rest) : rest <:+ tokens := by
  induction descent with
  | number => exact List.suffix_cons _ _
  | spoilt => exact List.suffix_cons _ _
  | reference => exact List.suffix_cons _ _
  | emptyCall =>
    exact ((List.suffix_cons _ _).trans (List.suffix_cons _ _)).trans (List.suffix_cons _ _)
  | call _ _ _ _ ih => exact (ih.trans (List.suffix_cons _ _)).trans (List.suffix_cons _ _)
  | nested _ _ ih => exact ih.trans (List.suffix_cons _ _)
  | noOperand => exact List.suffix_refl _
  | groupFails _ ih => exact ih
  | closed _ _ ih => exact (List.suffix_cons _ _).trans ih
  | unclosed _ _ ih => exact ih
  | argumentFails _ ih => exact ih
  | nextArgument _ _ _ _ first others => exact (others.trans (List.suffix_cons _ _)).trans first
  | lastArgument _ _ ih => exact (List.suffix_cons _ _).trans ih
  | unclosedCall _ _ _ ih => exact ih
  | firstFails _ ih => exact ih
  | folded _ _ _ first others => exact others.trans first
  | rests => exact List.suffix_refl _
  | looser => exact List.suffix_refl _
  | unknown => exact List.suffix_refl _
  | rightFails _ _ _ _ ih => exact ih.trans (List.suffix_cons _ _)
  | tighterFails _ _ _ _ _ operand tighter =>
    exact (tighter.trans operand).trans (List.suffix_cons _ _)
  | fold _ _ _ _ _ _ _ operand tighter others =>
    exact ((others.trans tighter).trans operand).trans (List.suffix_cons _ _)

theorem length_le {routine : Routine} {tokens rest : List Token} {outcome : Except Fault Node}
    (descent : Descends table routine tokens outcome rest) : rest.length ≤ tokens.length :=
  descent.suffix.length_le

/-- A complete operand has taken tokens. -/
theorem operand_shorter {tokens rest : List Token} {e : Node}
    (descent : Descends table .operand tokens (.ok e) rest) : rest.length < tokens.length := by
  cases descent with
  | number => simp
  | reference => simp
  | emptyCall =>
    simp only [List.length_cons]
    omega
  | call _ _ _ inner =>
    have := inner.length_le
    simp only [List.length_cons]
    omega
  | nested _ inner =>
    have := inner.length_le
    simp only [List.length_cons]
    omega

/-- Where operators have been read, the next one, if there is one, binds more loosely. -/
def StopsBelow (table : OperatorTable) (least : Int) (rest : List Token) : Prop :=
  ∀ t ∈ rest.head?, t.kind = .operator →
    ∃ power : Nat, table.powerOf? t.value.plain = some power ∧ (power : Int) < least

theorem stopsBelow_of_other {least : Int} {rest : List Token}
    (other : nextKind rest ≠ .operator) : StopsBelow table least rest := by
  intro t member kind
  obtain ⟨tail, rfl⟩ := List.head?_eq_some_iff.mp member
  exact absurd kind other

theorem other_of_stopsBelow {rest : List Token} (stops : StopsBelow table 0 rest) :
    nextKind rest ≠ .operator := by
  cases rest with
  | nil => simp [nextKind]
  | cons t rest =>
    intro kind
    obtain ⟨power, _, below⟩ := stops t rfl kind
    omega

/-- What a descent that succeeds leaves in front of whoever reads on. -/
def Stops (table : OperatorTable) : Routine → List Token → Prop
  | .expression, rest => nextKind rest ≠ .operator
  | .operations least _, rest => StopsBelow table least rest
  | _, _ => True

theorem stops {routine : Routine} {tokens rest : List Token} {outcome : Except Fault Node}
    (descent : Descends table routine tokens outcome rest) :
    ∀ e, outcome = .ok e → Stops table routine rest := by
  induction descent with
  | folded _ _ _ _ others =>
    intro e same
    exact other_of_stopsBelow (others e same)
  | rests other =>
    intro _ _
    exact stopsBelow_of_other other
  | looser kind known below =>
    intro _ _ t member _
    obtain rfl := Option.some.inj member
    exact ⟨_, known, below⟩
  | fold _ _ _ _ _ _ _ _ _ others =>
    intro e same
    exact others e same
  | firstFails => intro _ same; cases same
  | unknown => intro _ same; cases same
  | rightFails => intro _ same; cases same
  | tighterFails => intro _ same; cases same
  | _ => intro _ _; trivial

/-! ## Every descent ends -/

def Ends (table : OperatorTable) (routine : Routine) (tokens : List Token) : Prop :=
  ∃ outcome rest, Descends table routine tokens outcome rest

theorem group_ends {tokens : List Token} (inner : Ends table .expression tokens) :
    Ends table .group tokens := by
  obtain ⟨outcome, rest, descent⟩ := inner
  cases outcome with
  | error fault => exact ⟨_, rest, .groupFails descent⟩
  | ok e =>
    by_cases closes : nextKind rest = .closing
    · cases rest with
      | nil => cases closes
      | cons closing rest => exact ⟨_, rest, .closed descent closes⟩
    · exact ⟨_, rest, .unclosed descent closes⟩

theorem arguments_ends {bound : Nat}
    (expressions : ∀ tokens : List Token, tokens.length < bound → Ends table .expression tokens)
    {tokens : List Token} (within : tokens.length < bound) (callee : String) (args : List Node) :
    Ends table (.arguments callee args) tokens := by
  induction size : tokens.length using Nat.strongRecOn generalizing tokens args with
  | ind n ih =>
    obtain ⟨outcome, rest, descent⟩ := expressions tokens within
    cases outcome with
    | error fault => exact ⟨_, rest, .argumentFails descent⟩
    | ok e =>
      by_cases comma : nextKind rest = .comma
      · cases rest with
        | nil => cases comma
        | cons separator middle =>
          have progress : middle.length < tokens.length := by
            have shorter := descent.length_le
            simp only [List.length_cons] at shorter
            omega
          obtain ⟨outcome, rest, others⟩ :=
            ih middle.length (by omega) (by omega) (args ++ [e]) rfl
          exact ⟨outcome, rest, .nextArgument descent comma progress others⟩
      · by_cases closes : nextKind rest = .closing
        · cases rest with
          | nil => cases closes
          | cons closing rest => exact ⟨_, rest, .lastArgument descent closes⟩
        · exact ⟨_, rest, .unclosedCall descent comma closes⟩

theorem named_ends {t : Token} {tokens : List Token} (kind : t.kind = .name)
    (expressions : ∀ inner : List Token, inner.length < (t :: tokens).length →
      Ends table .expression inner) : Ends table .operand (t :: tokens) := by
  by_cases opens : nextKind tokens = .opening
  · cases tokens with
    | nil => cases opens
    | cons opening tokens =>
      by_cases closes : nextKind tokens = .closing
      · cases tokens with
        | nil => cases closes
        | cons closing rest => exact ⟨_, rest, .emptyCall kind opens closes⟩
      · have within : tokens.length < (t :: opening :: tokens).length := by
          simp only [List.length_cons]
          omega
        obtain ⟨outcome, rest, inner⟩ := arguments_ends expressions within t.value.plain []
        exact ⟨outcome, rest, .call kind opens closes inner⟩
  · exact ⟨_, tokens, .reference kind opens⟩

theorem operand_ends {tokens : List Token}
    (expressions : ∀ inner : List Token, inner.length < tokens.length →
      Ends table .expression inner) : Ends table .operand tokens := by
  by_cases number : nextKind tokens = .number
  · cases tokens with
    | nil => cases number
    | cons t rest =>
      cases value : t.number? with
      | ok x => exact ⟨_, rest, .number number value⟩
      | error fault => exact ⟨_, rest, .spoilt number value⟩
  by_cases name : nextKind tokens = .name
  · cases tokens with
    | nil => cases name
    | cons t tokens => exact named_ends name expressions
  by_cases opens : nextKind tokens = .opening
  · cases tokens with
    | nil => cases opens
    | cons opening tokens =>
      obtain ⟨outcome, rest, inner⟩ := group_ends (expressions tokens (by simp))
      exact ⟨outcome, rest, .nested opens inner⟩
  · exact ⟨_, tokens, .noOperand number name opens⟩

theorem operations_ends {bound : Nat}
    (operands : ∀ tokens : List Token, tokens.length < bound → Ends table .operand tokens)
    {tokens : List Token} (within : tokens.length ≤ bound) (least : Int) (left : Node) :
    Ends table (.operations least left) tokens := by
  -- The descent for tighter operators begins behind the operand, and the next round behind that.
  induction size : tokens.length using Nat.strongRecOn generalizing tokens least left with
  | ind n ih =>
    by_cases kind : nextKind tokens = .operator
    · cases tokens with
      | nil => cases kind
      | cons t tokens =>
        simp only [List.length_cons] at within size
        cases known : table.powerOf? t.value.plain with
        | none => exact ⟨_, _, .unknown kind known⟩
        | some power =>
          by_cases below : (power : Int) < least
          · exact ⟨_, _, .looser kind known below⟩
          have enough : least ≤ (power : Int) := Int.not_lt.mp below
          obtain ⟨outcome, middle, operand⟩ := operands tokens (by omega)
          cases outcome with
          | error fault => exact ⟨_, middle, .rightFails kind known enough operand⟩
          | ok right =>
            have behind := operand.length_le
            obtain ⟨outcome, later, tighter⟩ :=
              ih middle.length (by omega) (by omega) (power + 1) right rfl
            cases outcome with
            | error fault => exact ⟨_, later, .tighterFails kind known enough operand tighter⟩
            | ok whole =>
              have beyond := tighter.length_le
              have progress : later.length < (t :: tokens).length := by
                simp only [List.length_cons]
                omega
              obtain ⟨outcome, rest, others⟩ := ih later.length (by omega) (by omega) least
                (.binary t.value.plain left whole) rfl
              exact ⟨outcome, rest, .fold kind known enough operand tighter progress others⟩
    · exact ⟨_, tokens, .rests kind⟩

theorem expression_ends (tokens : List Token) : Ends table .expression tokens := by
  induction size : tokens.length using Nat.strongRecOn generalizing tokens with
  | ind n ih =>
    have operands (inner : List Token) (within : inner.length ≤ n) :
        Ends table .operand inner :=
      operand_ends fun deeper shorter => ih deeper.length (by omega) deeper rfl
    obtain ⟨outcome, middle, first⟩ := operands tokens (Nat.le_of_eq size)
    cases outcome with
    | error fault => exact ⟨_, middle, .firstFails first⟩
    | ok left =>
      have progress := first.operand_shorter
      have behind : middle.length ≤ n := by omega
      have shorter (inner : List Token) (within : inner.length < n) : Ends table .operand inner :=
        operands inner (Nat.le_of_lt within)
      obtain ⟨outcome, rest, others⟩ := operations_ends shorter behind 0 left
      exact ⟨outcome, rest, .folded first progress others⟩

theorem ends (routine : Routine) (tokens : List Token) : Ends table routine tokens := by
  have operand (inner : List Token) : Ends table .operand inner :=
    operand_ends fun deeper _ => expression_ends deeper
  cases routine with
  | operand => exact operand tokens
  | group => exact group_ends (expression_ends tokens)
  | arguments callee args =>
    exact arguments_ends (fun inner _ => expression_ends inner) (Nat.lt_succ_self _) callee args
  | expression => exact expression_ends tokens
  | operations least left =>
    exact operations_ends (fun inner _ => operand inner) (Nat.le_refl _) least left

end Descends

end Formulary
