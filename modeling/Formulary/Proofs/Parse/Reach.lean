import Formulary.Proofs.Parse.Advances
import Formulary.Proofs.Parse.Rounds

/-!
How far the readings of a parser go. Whatever the tokens are, each of them comes to the outcome of a
descent through those that remain, and stands inside the list when it does.
-/
namespace Formulary

namespace DescendsGroup

variable {table : OperatorTable} {tokens rest : List Token} {outcome : Except Fault Node}

theorem iff_operand (opens : nextKind tokens = .opening) :
    DescendsGroup table tokens outcome rest ↔ Descends table .operand tokens outcome rest := by
  constructor
  · intro descent
    cases descent with
    | unopened other => exact absurd opens other
    | opened kind inner => exact .nested kind inner
  · intro descent
    cases descent with
    | nested kind inner => exact .opened kind inner
    | noOperand _ _ other => exact absurd opens other
    | number kind => simp [nextKind, kind] at opens
    | spoilt kind => simp [nextKind, kind] at opens
    | reference kind => simp [nextKind, kind] at opens
    | emptyCall kind => simp [nextKind, kind] at opens
    | call kind => simp [nextKind, kind] at opens

theorem iff_fault (other : nextKind tokens ≠ .opening) :
    DescendsGroup table tokens outcome rest ↔
      .error (faultAt tokens) = outcome ∧ tokens = rest := by
  constructor
  · intro descent
    cases descent with
    | unopened => exact ⟨rfl, rfl⟩
    | opened kind => exact absurd kind other
  · rintro ⟨rfl, rfl⟩
    exact .unopened other

end DescendsGroup

namespace Parser

variable {p : Parser}

/-- The reading has the one outcome of a descent through the tokens that remain, and what it leaves
is what the descent leaves. -/
structure Returns {ε α : Type} (p : Parser) (reading : Except ε α × Parser)
    (descent : Except ε α → List Token → Prop) : Prop where
  advances : p.Advances reading.2
  outcome_iff : ∀ outcome rest, descent outcome rest ↔
    reading.1 = outcome ∧ reading.2.remaining = rest

theorem read_returns {σ ε α : Type} {m : Machine σ ε α} {s : σ}
    {descent : Except ε α → List Token → Prop} (inside : p.position ≤ p.tokens.length)
    (iff : ∀ {outcome rest}, descent outcome rest ↔ m.run s p.remaining = (outcome, rest)) :
    p.Returns (p.read m s) descent := by
  have run := run_of_read (Prod.eta (p.read m s)).symm
  refine ⟨read_advances inside m s, ?_⟩
  intro outcome rest
  rw [iff, run, Prod.mk.injEq]

theorem advances_refl (inside : p.position ≤ p.tokens.length) : p.Advances p :=
  ⟨rfl, rfl, Nat.le_refl _, inside, by simp⟩

/-! ## Parentheses -/

theorem current_of_remaining {t : Token} {tokens : List Token} (same : p.remaining = t :: tokens) :
    p.current = t := by
  rw [current, same]
  rfl

theorem group_of_other (other : nextKind p.remaining ≠ .opening) :
    p.group = (.error (faultAt p.remaining), p) := by
  cases same : p.remaining with
  | nil =>
    have here : p.current = .endOfInput .nowhere := by
      rw [current, same]
      rfl
    simp [group, expect, atEnd, here, Token.endOfInput, faultAt]
  | cons t tokens =>
    rw [same] at other
    have here := current_of_remaining same
    by_cases ending : t.kind = .ending
    · simp [group, expect, atEnd, here, ending, faultAt]
    · have stray : t.kind ≠ .opening := other
      simp [group, expect, atEnd, here, ending, stray, faultAt]

/-- Where a parenthesis opens, an operand is what it encloses. -/
theorem group_of_opening (opens : nextKind p.remaining = .opening) : p.group = p.operand := by
  cases same : p.remaining with
  | nil =>
    rw [same] at opens
    cases opens
  | cons opening tokens =>
    rw [same] at opens
    have kind : opening.kind = .opening := opens
    have here := current_of_remaining same
    have front : p.remaining = [opening] ++ tokens := same
    have behind : p.advance.2.remaining = tokens := p.remaining_at front
    have entered : (Expression.machine p.table .none).run Expression.start (opening :: tokens) =
        (Expression.machine p.table .none).run ⟨[.group], .operand⟩ tokens :=
      Expression.run_takes (by simp [kind]) (.group (.inl rfl) kind) tokens
    have left := ((Expression.machine p.table .none).run_suffix ⟨[.group], .operand⟩ tokens).length_le
    have taken : p.expect [.opening] = (.ok opening, p.advance.2) := by
      simp [expect, atEnd, here, kind]
    simp only [group, taken, operand, readExpression, read, behind, same, entered]
    simp only [advance, List.length_cons, Prod.mk.injEq, Parser.mk.injEq, true_and, and_true]
    omega

theorem group_returns (inside : p.position ≤ p.tokens.length) :
    p.Returns p.group (DescendsGroup p.table p.remaining) := by
  by_cases opens : nextKind p.remaining = .opening
  · have operand : p.Returns p.operand (Descends p.table .operand p.remaining) :=
      read_returns inside descends_iff
    rw [group_of_opening opens]
    refine ⟨operand.advances, ?_⟩
    intro outcome rest
    rw [DescendsGroup.iff_operand opens, operand.outcome_iff]
  · rw [group_of_other opens]
    refine ⟨advances_refl inside, ?_⟩
    intro outcome rest
    rw [DescendsGroup.iff_fault opens]

/-- A complete operand has moved the parser on. -/
theorem operand_forward (inside : p.position ≤ p.tokens.length) {e : Node}
    (complete : p.operand.1 = .ok e) : p.position < p.operand.2.position := by
  have operand : p.Returns p.operand (Descends p.table .operand p.remaining) :=
    read_returns inside descends_iff
  have descent := (operand.outcome_iff _ _).mpr ⟨complete, rfl⟩
  have shorter := descent.operand_shorter
  have same := operand.advances.tokens
  have within := operand.advances.inside
  simp only [remaining, List.length_drop, same] at shorter
  omega

end Parser

/-- Whatever the tokens are, a parser that stands inside them returns from every reading with the
one outcome of a descent, no further back than it was, inside the list, and without having passed an
end of the input. A complete operand has taken tokens, wherever one is read on the way; and the
descents themselves go round only while tokens are taken. -/
theorem readings_end_inside (p : Parser) (inside : p.position ≤ p.tokens.length) :
    p.Returns p.program (DescendsProgram p.table [] p.remaining) ∧
    p.Returns p.expression (Descends p.table .expression p.remaining) ∧
    p.Returns p.prototype (DescendsPrototype p.remaining) ∧
    p.Returns p.operand (Descends p.table .operand p.remaining) ∧
    p.Returns p.group (DescendsGroup p.table p.remaining) ∧
    (∀ e, p.operand.1 = .ok e → p.position < p.operand.2.position) ∧
    ∀ routine tokens outcome rest, Descends p.table routine tokens outcome rest →
      ∃ taken, tokens = taken ++ rest ∧ (∀ t ∈ taken, t.kind ≠ .ending) ∧
        ∀ e, routine = .operand → outcome = .ok e → taken ≠ [] := by
  refine ⟨Parser.read_returns inside descendsProgram_iff, Parser.read_returns inside descends_iff,
    Parser.read_returns inside descendsPrototype_iff, Parser.read_returns inside descends_iff,
    Parser.group_returns inside, fun _ complete => Parser.operand_forward inside complete, ?_⟩
  intro routine tokens outcome rest descent
  obtain ⟨taken, same, live⟩ :=
    (Expression.machine p.table routine.bound).run_taken routine.reading tokens
  rw [run_of_descends descent] at same
  refine ⟨taken, same, live, ?_⟩
  rintro e rfl rfl rfl
  have shorter := descent.operand_shorter
  rw [same] at shorter
  simp at shorter

theorem readings_end_inside_cut :
    let name : Token := ⟨.name, .text "f", .nowhere⟩
    let opening : Token := ⟨.opening, .text "(", .nowhere⟩
    let ending : Token := ⟨.ending, .absent, .nowhere⟩
    let tokens := [ending, name, opening, name, ending, name]
    let p := Parser.mk tokens 1 .default
    1 ≤ tokens.length ∧ p.operand = (.error .unexpectedEnd, ⟨tokens, 4, .default⟩) ∧
    p.Returns p.program (DescendsProgram .default [] p.remaining) ∧
    p.Returns p.expression (Descends .default .expression p.remaining) ∧
    p.Returns p.prototype (DescendsPrototype p.remaining) ∧
    p.Returns p.operand (Descends .default .operand p.remaining) ∧
    p.Returns p.group (DescendsGroup .default p.remaining) ∧
    (∀ e, p.operand.1 = .ok e → p.position < p.operand.2.position) ∧
    ∀ routine tokens outcome rest, Descends .default routine tokens outcome rest →
      ∃ taken, tokens = taken ++ rest ∧ (∀ t ∈ taken, t.kind ≠ .ending) ∧
        ∀ e, routine = .operand → outcome = .ok e → taken ≠ [] := by
  intro name opening ending tokens p
  have inside : p.position ≤ p.tokens.length := by decide
  exact ⟨inside, rfl, readings_end_inside p inside⟩

end Formulary
