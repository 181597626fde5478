import Formulary.Proofs.Parse.Grammar

/-!
What the tokens taken so far stand for. Each open construct accounts for the tokens from its own
first one up to those of the next construct, and the operand at the place of reading for the rest.
Every shift keeps that account, so where a reading may end its tokens render the result.
-/
namespace Formulary

/-- The arguments of a call that is still open, each with the comma behind it. -/
def RendersOpenArguments (table : OperatorTable) (args : List Node) (w : List Token) : Prop :=
  args = [] ∧ w = [] ∨
    ∃ (v : List Token) (comma : Token), w = v ++ [comma] ∧ comma.kind = .comma ∧ args ≠ [] ∧
      Renders table (.arguments args) v

/-- The tokens of the open constructs, outermost first. -/
inductive Opened (table : OperatorTable) : List Frame → List Token → Prop where
  | nil : Opened table [] []
  | operation {left : Node} {loosest : Option Nat} {op : String} {power : Nat} {t : Token}
      {outer : List Frame} {v w : List Token} (before : Opened table outer v)
      (loose : LeavesOpen power outer) (first : Renders table (.expression left loosest) w)
      (leftBinds : ∀ p ∈ loosest, power ≤ p) (token : t.Carries .operator (.text op))
      (known : table.powerOf? op = some power) :
      Opened table (.operation left op power :: outer) (v ++ (w ++ [t]))
  | group {opening : Token} {outer : List Frame} {v : List Token} (before : Opened table outer v)
      (opens : opening.kind = .opening) : Opened table (.group :: outer) (v ++ [opening])
  | call {callee : String} {args : List Node} {t opening : Token} {outer : List Frame}
      {v w : List Token} (before : Opened table outer v) (token : t.Carries .name (.text callee))
      (opens : opening.kind = .opening) (done : RendersOpenArguments table args w) :
      Opened table (.call callee args :: outer) (v ++ t :: opening :: w)

/-- The account of a reading: what is open, and the operand if one stands complete. -/
def Reading.Accounts (table : OperatorTable) (r : Reading) (w : List Token) : Prop :=
  match r.focus with
  | .operand => Opened table r.frames w
  | .argument => Opened table r.frames w ∧ ∃ callee outer, r.frames = .call callee [] :: outer
  | .name name =>
    ∃ (v : List Token) (t : Token), w = v ++ [t] ∧ Opened table r.frames v ∧
      t.Carries .name (.text name)
  | .complete e =>
    ∃ v u : List Token, w = v ++ u ∧ Opened table r.frames v ∧ Renders table (.expression e none) u

variable {table : OperatorTable}

theorem renders_arguments_snoc {phrase : Phrase} {e : Node} {loosest : Option Nat} {comma : Token}
    {v w : List Token} (first : Renders table phrase v) (kind : comma.kind = .comma)
    (last : Renders table (.expression e loosest) w) :
    ∀ args : List Node, args ≠ [] → phrase = .arguments args →
      Renders table (.arguments (args ++ [e])) (v ++ comma :: w) := by
  induction first with
  | number => intro args _ same; cases same
  | reference => intro args _ same; cases same
  | call => intro args _ same; cases same
  | binary => intro args _ same; cases same
  | group => intro args _ same; cases same
  | noArguments =>
    intro args nonempty same
    cases same
    exact absurd rfl nonempty
  | argument only =>
    intro args _ same
    cases same
    exact .moreArguments only kind (.argument last)
  | moreArguments first between rest _ ih =>
    intro args _ same
    cases same
    simpa using Renders.moreArguments first between (ih _ (by simp) rfl)

theorem renders_arguments_close {args : List Node} {e : Node} {loosest : Option Nat}
    {v w : List Token} (done : RendersOpenArguments table args v)
    (last : Renders table (.expression e loosest) w) :
    Renders table (.arguments (args ++ [e])) (v ++ w) := by
  rcases done with ⟨rfl, rfl⟩ | ⟨u, comma, rfl, kind, nonempty, rendering⟩
  · exact .argument last
  · simpa using renders_arguments_snoc rendering kind last args nonempty rfl

theorem Reading.Accounts.operand {r : Reading} {w : List Token} {operand : Node}
    (accounts : r.Accounts table w) (complete : r.focus.operand? = some operand) :
    ∃ v u : List Token, w = v ++ u ∧ Opened table r.frames v ∧
      Renders table (.expression operand none) u := by
  obtain ⟨frames, focus⟩ := r
  cases focus with
  | operand => simp [Focus.operand?] at complete
  | argument => simp [Focus.operand?] at complete
  | name text =>
    obtain rfl := Option.some.inj complete
    obtain ⟨v, t, rfl, opened, token⟩ := accounts
    exact ⟨v, [t], rfl, opened, .reference token⟩
  | complete e =>
    obtain rfl := Option.some.inj complete
    exact accounts

/-- Closing operations around an operand moves their tokens over to it. What it then holds binds
at least as tightly as all that was closed, and more tightly than what stays open. -/
theorem opened_settle {frames : List Frame} {operand : Node} {loosest : Option Nat}
    {v u : List Token} (power : Nat) (opened : Opened table frames v)
    (rendering : Renders table (.expression operand loosest) u)
    (tight : ∀ p ∈ loosest, LeavesOpen p frames) (above : ∀ p ∈ loosest, power ≤ p) :
    ∃ (loosest' : Option Nat) (v' u' : List Token), v ++ u = v' ++ u' ∧
      Opened table (settle power frames operand).1 v' ∧
      Renders table (.expression (settle power frames operand).2 loosest') u' ∧
      LeavesOpen power (settle power frames operand).1 ∧ ∀ p ∈ loosest', power ≤ p := by
  induction opened generalizing operand loosest u with
  | nil => exact ⟨loosest, [], u, rfl, .nil, rendering, trivial, above⟩
  | @operation left a op q t outer v w before loose first leftBinds token known ih =>
    simp only [settle]
    split
    · next closes =>
      have folded : Renders table (.expression (.binary op left operand) (some q)) (w ++ t :: u) :=
        .binary token known first leftBinds rendering tight
      have result := ih folded (by simpa using loose) (by simpa using closes)
      simpa using result
    · next stays =>
      exact ⟨loosest, _, u, rfl, .operation before loose first leftBinds token known, rendering,
        Nat.not_le.mp stays, above⟩
  | group before opens =>
    exact ⟨loosest, _, u, rfl, .group before opens, rendering, trivial, above⟩
  | call before token opens done =>
    exact ⟨loosest, _, u, rfl, .call before token opens done, rendering, trivial, above⟩

theorem Reading.Accounts.settled {r : Reading} {w : List Token} {operand e : Node}
    {frames : List Frame} {power : Nat} (accounts : r.Accounts table w)
    (complete : r.focus.operand? = some operand)
    (settled : settle power r.frames operand = (frames, e)) :
    ∃ (loosest : Option Nat) (v u : List Token), w = v ++ u ∧ Opened table frames v ∧
      Renders table (.expression e loosest) u ∧ LeavesOpen power frames ∧
      ∀ p ∈ loosest, power ≤ p := by
  obtain ⟨v, u, rfl, opened, rendering⟩ := accounts.operand complete
  have result := opened_settle power opened rendering (by simp) (by simp)
  rwa [settled] at result

namespace Expression

theorem accounts_operator {r : Reading} {w : List Token} {operand left : Node} {t : Token}
    {inner : List Frame} {power : Nat} (accounts : r.Accounts table w) (wellFormed : t.WellFormed)
    (complete : r.focus.operand? = some operand) (kind : t.kind = .operator)
    (known : table.powerOf? t.value.plain = some power)
    (settled : settle power r.frames operand = (inner, left)) :
    Reading.Accounts table ⟨.operation left t.value.plain power :: inner, .operand⟩ (w ++ [t]) := by
  obtain ⟨loosest, v, u, rfl, opened, rendering, loose, leftBinds⟩ :=
    accounts.settled complete settled
  have token := wellFormed.carries_text kind (by simp)
  have next := Opened.operation opened loose rendering leftBinds token known
  simpa [Reading.Accounts] using next

theorem accounts_comma {r : Reading} {w : List Token} {operand arg : Node} {t : Token}
    {outer : List Frame} {callee : String} {args : List Node} (accounts : r.Accounts table w)
    (complete : r.focus.operand? = some operand) (kind : t.kind = .comma)
    (settled : settle 0 r.frames operand = (.call callee args :: outer, arg)) :
    Reading.Accounts table ⟨.call callee (args ++ [arg]) :: outer, .operand⟩ (w ++ [t]) := by
  obtain ⟨loosest, v, u, rfl, opened, rendering, _⟩ := accounts.settled complete settled
  cases opened with
  | @call _ _ name opening _ v w before token opens done =>
    have inner := renders_arguments_close done rendering
    have next := Opened.call before token opens
      (.inr ⟨w ++ u, t, rfl, kind, by simp, inner⟩ : RendersOpenArguments table (args ++ [arg]) _)
    simpa [Reading.Accounts] using next

theorem accounts_closeCall {r : Reading} {w : List Token} {operand arg : Node} {t : Token}
    {outer : List Frame} {callee : String} {args : List Node} (accounts : r.Accounts table w)
    (complete : r.focus.operand? = some operand) (kind : t.kind = .closing)
    (settled : settle 0 r.frames operand = (.call callee args :: outer, arg)) :
    Reading.Accounts table ⟨outer, .complete (.call callee (args ++ [arg]))⟩ (w ++ [t]) := by
  obtain ⟨loosest, v, u, rfl, opened, rendering, _⟩ := accounts.settled complete settled
  cases opened with
  | @call _ _ name opening _ v w before token opens done =>
    have inner := renders_arguments_close done rendering
    exact ⟨v, _, by simp, before, .call token opens inner kind⟩

theorem accounts_closeGroup {r : Reading} {w : List Token} {operand e : Node} {t : Token}
    {outer : List Frame} (accounts : r.Accounts table w)
    (complete : r.focus.operand? = some operand) (kind : t.kind = .closing)
    (settled : settle 0 r.frames operand = (.group :: outer, e)) :
    Reading.Accounts table ⟨outer, .complete e⟩ (w ++ [t]) := by
  obtain ⟨loosest, v, u, rfl, opened, rendering, _⟩ := accounts.settled complete settled
  cases opened with
  | @group opening _ v before opens =>
    exact ⟨v, _, by simp, before, .group opens rendering kind⟩

theorem opened_of_ready {frames : List Frame} {focus : Focus} {w : List Token}
    (accounts : Reading.Accounts table ⟨frames, focus⟩ w)
    (ready : focus = .operand ∨ focus = .argument) : Opened table frames w := by
  rcases ready with rfl | rfl
  · exact accounts
  · exact accounts.1

theorem accounts_takes {bound : Bound} {r next : Reading} {w : List Token} {t : Token}
    (accounts : r.Accounts table w) (wellFormed : t.WellFormed)
    (takes : Takes table bound r t next) : next.Accounts table (w ++ [t]) := by
  cases takes with
  | @number frames focus _ x ready kind value =>
    obtain ⟨y, token⟩ := wellFormed.carries_number kind
    have same : y = x := by
      rw [Token.number?, token.2] at value
      exact Except.ok.inj value
    exact ⟨w, [t], rfl, opened_of_ready accounts ready, .number (same ▸ token)⟩
  | name ready kind =>
    have token := wellFormed.carries_text kind (by simp)
    exact ⟨w, t, rfl, opened_of_ready accounts ready, token⟩
  | group ready kind => exact .group (opened_of_ready accounts ready) kind
  | call kind =>
    obtain ⟨v, name, rfl, opened, token⟩ := accounts
    have next := Opened.call opened token kind (.inl ⟨rfl, rfl⟩)
    exact ⟨by simpa using next, _, _, rfl⟩
  | closeEmpty kind =>
    obtain ⟨opened, callee, outer, same⟩ := accounts
    cases same
    cases opened with
    | @call _ _ name opening _ v w before token opens done =>
      rcases done with ⟨_, rfl⟩ | ⟨_, _, _, _, nonempty, _⟩
      · exact ⟨v, _, by simp, before, .call (w := []) token opens .noArguments kind⟩
      · exact absurd rfl nonempty
  | operator complete kind known settled =>
    exact accounts_operator accounts wellFormed complete kind known settled
  | comma complete kind settled => exact accounts_comma accounts complete kind settled
  | closeCall complete kind settled => exact accounts_closeCall accounts complete kind settled
  | closeGroup complete kind settled => exact accounts_closeGroup accounts complete kind settled

theorem accounts_of_shifts {r last : Reading} {w : List Token}
    (shifts : (whole table).Shifts r w last) {v : List Token} (accounts : r.Accounts table v)
    (wellFormed : ∀ t ∈ v ++ w, t.WellFormed) : last.Accounts table (v ++ w) := by
  refine shifts.preserves (fun s u => (∀ t ∈ u, t.WellFormed) → s.Accounts table u) ?_
    (fun _ => accounts) wellFormed
  intro s u t next before move inside
  exact accounts_takes (before fun s member => inside s (by simp [member])) (inside t (by simp))
    (takes_of_step move)

theorem renders_of_completes {r : Reading} {w : List Token} {e : Node}
    (accounts : r.Accounts table w) (completes : r.Completes e) :
    ∃ loosest : Option Nat, Renders table (.expression e loosest) w := by
  obtain ⟨operand, complete, settled⟩ := completes
  obtain ⟨loosest, v, u, rfl, opened, rendering, _⟩ := accounts.settled complete settled
  cases opened
  exact ⟨loosest, rendering⟩

end Expression

end Formulary
