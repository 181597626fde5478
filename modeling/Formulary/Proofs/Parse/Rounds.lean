import Formulary.Proofs.Parse.Advances
import Formulary.Proofs.Parse.Unwinding

/-!
Prototypes, items and programs read by descent, and how far every reading goes. The parameters of a
prototype and the items of a program are read in rounds, each of which leaves fewer tokens; so every
descent ends, and what a parser returns is the outcome of one.
-/
namespace Formulary

/-- At least one parameter more, and the parenthesis that closes the prototype. -/
inductive DescendsParams (name : String) :
    List String → List Token → Except Fault Prototype → List Token → Prop where
  | noParam {params : List String} {tokens : List Token} (other : nextKind tokens ≠ .name) :
      DescendsParams name params tokens (.error (faultAt tokens)) tokens
  | nextParam {params : List String} {t comma : Token} {tokens rest : List Token}
      {outcome : Except Fault Prototype} (kind : t.kind = .name) (separates : comma.kind = .comma)
      (progress : tokens.length < (t :: comma :: tokens).length)
      (others : DescendsParams name (params ++ [t.value.plain]) tokens outcome rest) :
      DescendsParams name params (t :: comma :: tokens) outcome rest
  | lastParam {params : List String} {t closing : Token} {rest : List Token}
      (kind : t.kind = .name) (closes : closing.kind = .closing) :
      DescendsParams name params (t :: closing :: rest) (.ok ⟨name, params ++ [t.value.plain]⟩) rest
  | unclosed {params : List String} {t : Token} {rest : List Token} (kind : t.kind = .name)
      (comma : nextKind rest ≠ .comma) (closing : nextKind rest ≠ .closing) :
      DescendsParams name params (t :: rest) (.error (faultAt rest)) rest

inductive DescendsPrototype : List Token → Except Fault Prototype → List Token → Prop where
  | unnamed {tokens : List Token} (other : nextKind tokens ≠ .name) :
      DescendsPrototype tokens (.error (faultAt tokens)) tokens
  | unopened {t : Token} {rest : List Token} (kind : t.kind = .name)
      (other : nextKind rest ≠ .opening) :
      DescendsPrototype (t :: rest) (.error (faultAt rest)) rest
  | noParams {t opening closing : Token} {rest : List Token} (kind : t.kind = .name)
      (opens : opening.kind = .opening) (closes : closing.kind = .closing) :
      DescendsPrototype (t :: opening :: closing :: rest) (.ok ⟨t.value.plain, []⟩) rest
  | params {t opening : Token} {tokens rest : List Token} {outcome : Except Fault Prototype}
      (kind : t.kind = .name) (opens : opening.kind = .opening)
      (nonempty : nextKind tokens ≠ .closing)
      (inner : DescendsParams t.value.plain [] tokens outcome rest) :
      DescendsPrototype (t :: opening :: tokens) outcome rest

/-- An expression in parentheses, the one that opens it included. -/
inductive DescendsGroup (table : OperatorTable) :
    List Token → Except Fault Node → List Token → Prop where
  | unopened {tokens : List Token} (other : nextKind tokens ≠ .opening) :
      DescendsGroup table tokens (.error (faultAt tokens)) tokens
  | opened {opening : Token} {tokens rest : List Token} {outcome : Except Fault Node}
      (opens : opening.kind = .opening) (inner : Descends table .group tokens outcome rest) :
      DescendsGroup table (opening :: tokens) outcome rest

inductive DescendsItem (table : OperatorTable) :
    List Token → Except Fault Node → List Token → Prop where
  | declaration {t : Token} {tokens rest : List Token} {outcome : Except Fault Prototype}
      (kind : t.kind = .declaration) (signature : DescendsPrototype tokens outcome rest) :
      DescendsItem table (t :: tokens) (outcome.map fun p => .declaration (.prototype p)) rest
  | unsigned {t : Token} {tokens rest : List Token} {fault : Fault} (kind : t.kind = .definition)
      (signature : DescendsPrototype tokens (.error fault) rest) :
      DescendsItem table (t :: tokens) (.error fault) rest
  | definition {t : Token} {tokens middle rest : List Token} {p : Prototype}
      {outcome : Except Fault Node} (kind : t.kind = .definition)
      (signature : DescendsPrototype tokens (.ok p) middle)
      (body : Descends table .expression middle outcome rest) :
      DescendsItem table (t :: tokens) (outcome.map (.definition (.prototype p))) rest
  | bare {tokens rest : List Token} {outcome : Except Fault Node}
      (live : nextKind tokens ≠ .ending) (separator : nextKind tokens ≠ .separator)
      (declaration : nextKind tokens ≠ .declaration) (definition : nextKind tokens ≠ .definition)
      (body : Descends table .expression tokens outcome rest) :
      DescendsItem table tokens (outcome.map .bare) rest

/-- Items and semicolons up to the end of the input, behind the items given. -/
inductive DescendsProgram (table : OperatorTable) :
    List Node → List Token → Except ProgramFault (List Node) → List Token → Prop where
  | ended {items : List Node} {tokens : List Token} (ending : nextKind tokens = .ending) :
      DescendsProgram table items tokens (.ok items) tokens
  | separator {items : List Node} {t : Token} {tokens rest : List Token}
      {outcome : Except ProgramFault (List Node)} (kind : t.kind = .separator)
      (progress : tokens.length < (t :: tokens).length)
      (others : DescendsProgram table items tokens outcome rest) :
      DescendsProgram table items (t :: tokens) outcome rest
  | itemFails {items : List Node} {tokens rest : List Token} {fault : Fault}
      (item : DescendsItem table tokens (.error fault) rest) :
      DescendsProgram table items tokens (.error ⟨items, fault⟩) rest
  | item {items : List Node} {node : Node} {tokens middle rest : List Token}
      {outcome : Except ProgramFault (List Node)}
      (item : DescendsItem table tokens (.ok node) middle)
      (progress : middle.length < tokens.length)
      (others : DescendsProgram table (items ++ [node]) middle outcome rest) :
      DescendsProgram table items tokens outcome rest

/-! ## Prototypes -/

namespace PrototypeReading

theorem run_complete (p : Prototype) (rest : List Token) :
    machine.run (.complete p) rest = (.ok p, rest) := by
  refine Machine.run_of_yields ?_
  cases rest with
  | nil => rfl
  | cons t rest =>
    simp only [Machine.Yields]
    split
    · rfl
    · rfl

theorem run_of_params {name : String} {params : List String} {tokens rest : List Token}
    {outcome : Except Fault Prototype} (descent : DescendsParams name params tokens outcome rest) :
    machine.run (.param name params) tokens = (outcome, rest) := by
  have named {params : List String} {t : Token} (kind : t.kind = .name) (tokens : List Token) :
      machine.run (.param name params) (t :: tokens) =
        machine.run (.afterParam name (params ++ [t.value.plain])) tokens :=
    Machine.run_shift (by simp [kind]) (by simp only [machine, step, kind]) tokens
  induction descent with
  | noParam other =>
    refine Machine.run_fault rfl ?_
    intro t member _
    rw [nextKind_eq member] at other
    simp [machine, step, other]
  | @nextParam params t comma tokens _ _ kind separates _ _ ih =>
    have separated : machine.run (.afterParam name (params ++ [t.value.plain])) (comma :: tokens) =
        machine.run (.param name (params ++ [t.value.plain])) tokens :=
      Machine.run_shift (by simp [separates]) (by simp only [machine, step, separates]) tokens
    exact (named kind _).trans (separated.trans ih)
  | @lastParam params t closing rest kind closes =>
    have closed : machine.run (.afterParam name (params ++ [t.value.plain])) (closing :: rest) =
        machine.run (.complete ⟨name, params ++ [t.value.plain]⟩) rest :=
      Machine.run_shift (by simp [closes]) (by simp only [machine, step, closes]) rest
    exact (named kind _).trans (closed.trans (run_complete _ rest))
  | unclosed kind comma closing =>
    refine (named kind _).trans (Machine.run_fault rfl ?_)
    intro t member _
    rw [nextKind_eq member] at comma closing
    simp [machine, step, comma, closing]

theorem run_firstParam {name : String} {tokens : List Token}
    (nonempty : nextKind tokens ≠ .closing) :
    machine.run (.firstParam name) tokens = machine.run (.param name []) tokens := by
  refine Machine.run_congr (fun _ => rfl) ?_
  intro t member _
  rw [nextKind_eq member] at nonempty
  by_cases kind : t.kind = .name
  · simp [machine, step, kind]
  · simp [machine, step, kind, nonempty]

theorem run_of_descends {tokens rest : List Token} {outcome : Except Fault Prototype}
    (descent : DescendsPrototype tokens outcome rest) :
    machine.run .start tokens = (outcome, rest) := by
  have named {t : Token} (kind : t.kind = .name) (tokens : List Token) :
      machine.run .start (t :: tokens) = machine.run (.opening t.value.plain) tokens :=
    Machine.run_shift (by simp [kind]) (by simp only [machine, step, kind]) tokens
  have opened (name : String) {opening : Token} (opens : opening.kind = .opening)
      (tokens : List Token) : machine.run (.opening name) (opening :: tokens) =
        machine.run (.firstParam name) tokens :=
    Machine.run_shift (by simp [opens]) (by simp only [machine, step, opens]) tokens
  cases descent with
  | unnamed other =>
    refine Machine.run_fault rfl ?_
    intro t member _
    rw [nextKind_eq member] at other
    simp [machine, step, other]
  | unopened kind other =>
    refine (named kind _).trans (Machine.run_fault rfl ?_)
    intro t member _
    rw [nextKind_eq member] at other
    simp [machine, step, other]
  | @noParams t opening closing rest kind opens closes =>
    have closed : machine.run (.firstParam t.value.plain) (closing :: rest) =
        machine.run (.complete ⟨t.value.plain, []⟩) rest :=
      Machine.run_shift (by simp [closes]) (by simp only [machine, step, closes]) rest
    calc machine.run .start (t :: opening :: closing :: rest)
        = machine.run (.opening t.value.plain) (opening :: closing :: rest) := named kind _
      _ = machine.run (.firstParam t.value.plain) (closing :: rest) := opened _ opens _
      _ = (.ok ⟨t.value.plain, []⟩, rest) := closed.trans (run_complete _ rest)
  | @params t opening tokens _ _ kind opens nonempty inner =>
    calc machine.run .start (t :: opening :: tokens)
        = machine.run (.opening t.value.plain) (opening :: tokens) := named kind _
      _ = machine.run (.firstParam t.value.plain) tokens := opened _ opens _
      _ = machine.run (.param t.value.plain []) tokens := run_firstParam nonempty
      _ = _ := run_of_params inner

end PrototypeReading

theorem DescendsParams.ends (name : String) (params : List String) (tokens : List Token) :
    ∃ outcome rest, DescendsParams name params tokens outcome rest := by
  induction size : tokens.length using Nat.strongRecOn generalizing params tokens with
  | ind n ih =>
    by_cases kind : nextKind tokens = .name
    · cases tokens with
      | nil => cases kind
      | cons t tokens =>
        by_cases comma : nextKind tokens = .comma
        · cases tokens with
          | nil => cases comma
          | cons separator tokens =>
            have progress : tokens.length < (t :: separator :: tokens).length := by
              simp only [List.length_cons]
              omega
            obtain ⟨outcome, rest, others⟩ :=
              ih tokens.length (size ▸ progress) (params ++ [t.value.plain]) tokens rfl
            exact ⟨outcome, rest, .nextParam kind comma progress others⟩
        · by_cases closes : nextKind tokens = .closing
          · cases tokens with
            | nil => cases closes
            | cons closing rest => exact ⟨_, rest, .lastParam kind closes⟩
          · exact ⟨_, tokens, .unclosed kind comma closes⟩
    · exact ⟨_, tokens, .noParam kind⟩

namespace DescendsPrototype

theorem ends (tokens : List Token) : ∃ outcome rest, DescendsPrototype tokens outcome rest := by
  by_cases kind : nextKind tokens = .name
  · cases tokens with
    | nil => cases kind
    | cons t tokens =>
      by_cases opens : nextKind tokens = .opening
      · cases tokens with
        | nil => cases opens
        | cons opening tokens =>
          by_cases closes : nextKind tokens = .closing
          · cases tokens with
            | nil => cases closes
            | cons closing rest => exact ⟨_, rest, .noParams kind opens closes⟩
          · obtain ⟨outcome, rest, inner⟩ := DescendsParams.ends t.value.plain [] tokens
            exact ⟨outcome, rest, .params kind opens closes inner⟩
      · exact ⟨_, tokens, .unopened kind opens⟩
  · exact ⟨_, tokens, .unnamed kind⟩

theorem length_le {tokens rest : List Token} {outcome : Except Fault Prototype}
    (descent : DescendsPrototype tokens outcome rest) : rest.length ≤ tokens.length := by
  have suffix := PrototypeReading.machine.run_suffix .start tokens
  rw [PrototypeReading.run_of_descends descent] at suffix
  exact suffix.length_le

end DescendsPrototype

theorem descendsPrototype_iff {tokens rest : List Token} {outcome : Except Fault Prototype} :
    DescendsPrototype tokens outcome rest ↔
      PrototypeReading.machine.run .start tokens = (outcome, rest) :=
  Machine.iff_run (fun _ _ => PrototypeReading.run_of_descends) (DescendsPrototype.ends tokens)

/-! ## Items -/

/-- A machine that stands inside another one until it comes to a result, behind which the outer one
goes on from a state of its own. -/
theorem Machine.run_inside {σ τ ε η α β : Type} {m : Machine σ ε α} {n : Machine τ η β}
    (state : σ → τ) (fault : ε → η) (after : α → τ)
    (steps : ∀ s t, n.step (state s) t =
      (m.step s t).within state fault fun a => n.step (after a) t)
    (ends : ∀ s, n.atEnd (state s) = match m.atEnd s with
      | .ok a => n.atEnd (after a)
      | .error e => .error (fault e))
    (s : σ) (tokens : List Token) : n.run (state s) tokens = match m.run s tokens with
      | (.ok a, rest) => n.run (after a) rest
      | (.error e, rest) => (.error (fault e), rest) := by
  induction tokens generalizing s with
  | nil =>
    simp only [run, ends]
    cases m.atEnd s with
    | ok a => rfl
    | error e => rfl
  | cons t tokens ih =>
    by_cases ending : t.kind = .ending
    · simp only [run, if_pos ending, ends]
      cases m.atEnd s with
      | ok a => simp only [run, if_pos ending]
      | error e => rfl
    · simp only [run, if_neg ending, steps]
      cases m.step s t with
      | shift next => exact ih next
      -- The token that shows the end of the inner part is the first one of what follows.
      | finish a => simp only [Move.within, run, if_neg ending]
      | refuse e => rfl
      | spoil e => rfl

namespace ProgramReading

variable {table : OperatorTable} {items : List Node} {tokens rest : List Token}

/-- Where a program goes on behind an item, or stops where that fails. -/
def Continues (table : OperatorTable) (items : List Node) (r : ProgramReading)
    (tokens : List Token) (outcome : Except Fault Node) (rest : List Token) : Prop :=
  (machine table).run r tokens = match outcome with
    | .ok node => (machine table).run ⟨node :: items, none⟩ rest
    | .error fault => (.error ⟨items.reverse, fault⟩, rest)

theorem continues_declaration {outcome : Except Fault Prototype}
    (signature : DescendsPrototype tokens outcome rest) :
    Continues table items ⟨items, some (.declaration .start)⟩ tokens
      (outcome.map fun p => .declaration (.prototype p)) rest := by
  have run := Machine.run_inside (m := PrototypeReading.machine) (n := machine table)
    (fun r => ⟨items, some (.declaration r)⟩) (⟨items.reverse, ·⟩)
    (fun p => ⟨.declaration (.prototype p) :: items, none⟩)
    (by
      intro r t
      simp only [machine, step, stepItem, ItemReading.step, PrototypeReading.machine]
      cases r.step t with
      | _ => rfl)
    (by
      intro r
      simp only [machine, atEnd, ItemReading.atEnd, PrototypeReading.machine]
      cases r.atEnd with
      | _ => rfl)
    .start tokens
  rw [PrototypeReading.run_of_descends signature] at run
  unfold Continues
  rw [run]
  cases outcome with
  | ok p => rfl
  | error fault => rfl

theorem run_definition {outcome : Except Fault Prototype}
    (signature : DescendsPrototype tokens outcome rest) :
    (machine table).run ⟨items, some (.definition .start)⟩ tokens = match outcome with
      | .ok p => (machine table).run ⟨items, some (.body p Expression.start)⟩ rest
      | .error fault => (.error ⟨items.reverse, fault⟩, rest) := by
  have run := Machine.run_inside (m := PrototypeReading.machine) (n := machine table)
    (fun r => ⟨items, some (.definition r)⟩) (⟨items.reverse, ·⟩)
    (fun p => ⟨items, some (.body p Expression.start)⟩)
    (by
      intro r t
      simp only [machine, step, stepItem, ItemReading.step, PrototypeReading.machine]
      cases r.step t with
      | _ => rfl)
    (by
      intro r
      cases r with
      | _ => rfl)
    .start tokens
  rw [PrototypeReading.run_of_descends signature] at run
  cases outcome with
  | ok p => exact run
  | error fault => exact run

theorem continues_body {outcome : Except Fault Node} (p : Prototype)
    (body : Descends table .expression tokens outcome rest) :
    Continues table items ⟨items, some (.body p Expression.start)⟩ tokens
      (outcome.map (.definition (.prototype p))) rest := by
  have run := Machine.run_inside (m := Expression.machine table (.atLeast 0)) (n := machine table)
    (fun r => ⟨items, some (.body p r)⟩) (⟨items.reverse, ·⟩)
    (fun e => ⟨.definition (.prototype p) e :: items, none⟩)
    (by
      intro r t
      simp only [machine, step, stepItem, ItemReading.step, ItemReading.stepBody,
        Expression.machine, ItemReading.bound]
      cases Expression.step table (.atLeast 0) r t with
      | _ => rfl)
    (by
      intro r
      simp only [machine, atEnd, ItemReading.atEnd, Expression.machine]
      cases Expression.atEnd r with
      | _ => rfl)
    Expression.start tokens
  have inner : (Expression.machine table (.atLeast 0)).run Expression.start tokens =
      (outcome, rest) := run_of_descends body
  rw [inner] at run
  unfold Continues
  rw [run]
  cases outcome with
  | ok e => rfl
  | error fault => rfl

/-- A bare item begins with its expression: no first token of one is left for what follows. -/
theorem run_bare (live : nextKind tokens ≠ .ending) (separator : nextKind tokens ≠ .separator)
    (declaration : nextKind tokens ≠ .declaration) (definition : nextKind tokens ≠ .definition) :
    (machine table).run ⟨items, none⟩ tokens =
      (machine table).run ⟨items, some .bare⟩ tokens := by
  refine Machine.run_congr (fun ending => absurd ending live) ?_
  intro t member _
  rw [nextKind_eq member] at separator declaration definition
  have begins : ∀ a, Expression.beginOperand [] t ≠ .finish a := by
    intro a
    unfold Expression.beginOperand
    split
    · split
      · simp
      · simp
    · simp
    · simp
    · simp
  have entered : begin table items t = stepItem table items .bare t fun item =>
      .finish (item :: items).reverse := by
    unfold begin
    split
    · contradiction
    · contradiction
    · contradiction
    · rfl
  simp only [machine, step, entered, stepItem, ItemReading.step, ItemReading.bare,
    ItemReading.stepBody, Expression.step, Expression.start]
  cases move : Expression.beginOperand [] t with
  | finish a => exact absurd move (begins a)
  | _ => rfl

theorem run_declarationWord {t : Token} (kind : t.kind = .declaration) (tokens : List Token) :
    (machine table).run ⟨items, none⟩ (t :: tokens) =
      (machine table).run ⟨items, some (.declaration .start)⟩ tokens :=
  Machine.run_shift (by simp [kind]) (by simp only [machine, step, begin, kind]) tokens

theorem run_definitionWord {t : Token} (kind : t.kind = .definition) (tokens : List Token) :
    (machine table).run ⟨items, none⟩ (t :: tokens) =
      (machine table).run ⟨items, some (.definition .start)⟩ tokens :=
  Machine.run_shift (by simp [kind]) (by simp only [machine, step, begin, kind]) tokens

theorem run_separator {t : Token} (kind : t.kind = .separator) (tokens : List Token) :
    (machine table).run ⟨items, none⟩ (t :: tokens) = (machine table).run ⟨items, none⟩ tokens :=
  Machine.run_shift (by simp [kind]) (by simp only [machine, step, begin, kind]) tokens

theorem continues_item {outcome : Except Fault Node}
    (descent : DescendsItem table tokens outcome rest) :
    Continues table items ⟨items, none⟩ tokens outcome rest := by
  cases descent with
  | declaration kind signature =>
    exact (run_declarationWord kind _).trans (continues_declaration signature)
  | unsigned kind signature => exact (run_definitionWord kind _).trans (run_definition signature)
  | definition kind signature body =>
    exact (run_definitionWord kind _).trans
      ((run_definition signature).trans (continues_body _ body))
  | bare live separator declaration definition body =>
    exact (run_bare live separator declaration definition).trans
      (continues_body .anonymous body)

theorem run_of_descends {outcome : Except ProgramFault (List Node)}
    (descent : DescendsProgram table items tokens outcome rest) :
    (machine table).run ⟨items.reverse, none⟩ tokens = (outcome, rest) := by
  induction descent with
  | ended ending =>
    rw [Machine.run_ended ending]
    simp [machine, atEnd]
  | separator kind _ _ ih => exact (run_separator kind _).trans ih
  | @itemFails items tokens rest fault item =>
    have fails : Continues table items.reverse ⟨items.reverse, none⟩ tokens (.error fault) rest :=
      continues_item item
    simpa [Continues] using fails
  | @item items node tokens middle _ _ item _ _ ih =>
    have continues : Continues table items.reverse ⟨items.reverse, none⟩ tokens (.ok node) middle :=
      continues_item item
    have reversed : (items ++ [node]).reverse = node :: items.reverse := by simp
    rw [reversed] at ih
    exact continues.trans ih

end ProgramReading

/-! ## Every descent ends -/

theorem Descends.expression_shorter {table : OperatorTable} {tokens rest : List Token} {e : Node}
    (descent : Descends table .expression tokens (.ok e) rest) : rest.length < tokens.length := by
  cases descent with
  | folded first _ others =>
    have behind := first.operand_shorter
    have further := others.length_le
    omega

namespace DescendsItem

variable {table : OperatorTable}

theorem shorter {tokens rest : List Token} {outcome : Except Fault Node}
    (descent : DescendsItem table tokens outcome rest) :
    ∀ node, outcome = .ok node → rest.length < tokens.length := by
  cases descent with
  | declaration _ signature =>
    intro _ _
    exact Nat.lt_succ_of_le signature.length_le
  | unsigned => intro _ same; cases same
  | definition _ signature body =>
    intro _ _
    exact Nat.lt_succ_of_le (Nat.le_trans body.length_le signature.length_le)
  | @bare tokens rest outcome _ _ _ _ body =>
    intro node same
    cases outcome with
    | error fault => cases same
    | ok e => exact body.expression_shorter

theorem ends {tokens : List Token} (live : nextKind tokens ≠ .ending)
    (separator : nextKind tokens ≠ .separator) :
    ∃ outcome rest, DescendsItem table tokens outcome rest := by
  by_cases declaration : nextKind tokens = .declaration
  · cases tokens with
    | nil => cases declaration
    | cons t tokens =>
      obtain ⟨_, rest, signature⟩ := DescendsPrototype.ends tokens
      exact ⟨_, rest, .declaration declaration signature⟩
  by_cases definition : nextKind tokens = .definition
  · cases tokens with
    | nil => cases definition
    | cons t tokens =>
      obtain ⟨outcome, middle, signature⟩ := DescendsPrototype.ends tokens
      cases outcome with
      | error fault => exact ⟨_, middle, .unsigned definition signature⟩
      | ok p =>
        obtain ⟨_, rest, body⟩ : Descends.Ends table .expression middle :=
          Descends.ends .expression middle
        exact ⟨_, rest, .definition definition signature body⟩
  · obtain ⟨_, rest, body⟩ : Descends.Ends table .expression tokens :=
      Descends.ends .expression tokens
    exact ⟨_, rest, .bare live separator declaration definition body⟩

end DescendsItem

theorem DescendsProgram.ends {table : OperatorTable} (items : List Node) (tokens : List Token) :
    ∃ outcome rest, DescendsProgram table items tokens outcome rest := by
  induction size : tokens.length using Nat.strongRecOn generalizing items tokens with
  | ind n ih =>
    by_cases ending : nextKind tokens = .ending
    · exact ⟨_, tokens, .ended ending⟩
    by_cases separator : nextKind tokens = .separator
    · cases tokens with
      | nil => cases separator
      | cons t tokens =>
        have progress : tokens.length < (t :: tokens).length := Nat.lt_succ_self _
        obtain ⟨outcome, rest, others⟩ := ih tokens.length (size ▸ progress) items tokens rfl
        exact ⟨outcome, rest, .separator separator progress others⟩
    · obtain ⟨outcome, middle, item⟩ : ∃ outcome rest, DescendsItem table tokens outcome rest :=
        DescendsItem.ends ending separator
      cases outcome with
      | error fault => exact ⟨_, middle, .itemFails item⟩
      | ok node =>
        have progress := item.shorter node rfl
        obtain ⟨outcome, rest, others⟩ :=
          ih middle.length (size ▸ progress) (items ++ [node]) middle rfl
        exact ⟨outcome, rest, .item item progress others⟩

theorem descendsProgram_iff {table : OperatorTable} {items : List Node} {tokens rest : List Token}
    {outcome : Except ProgramFault (List Node)} :
    DescendsProgram table items tokens outcome rest ↔
      (ProgramReading.machine table).run ⟨items.reverse, none⟩ tokens = (outcome, rest) :=
  Machine.iff_run (fun _ _ => ProgramReading.run_of_descends) (DescendsProgram.ends items tokens)

end Formulary
