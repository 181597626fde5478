import Formulary.Proofs.Parse.Exact

/-!
How reading fails. A token that may not stand where it does is reported as it is, except that an
operator behind a complete operand is looked up first, and one without a power is reported by its
symbol. Where the tokens end before a construct does, nothing but that is reported.
-/
namespace Formulary

/-- An operator that the table has no power for. -/
def Token.IsStray (table : OperatorTable) (t : Token) : Prop :=
  t.kind = .operator ∧ table.powerOf? t.value.plain = none

/-- What a refused token may be reported as. Only behind a complete operand may it be reported by
its symbol, and there every stray operator is. -/
def Reports (table : OperatorTable) (t : Token) (behindOperand : Prop) (fault : Fault) : Prop :=
  (t.IsStray table ∧ behindOperand) ∧ fault = .unknownOperator t.value.plain ∨
    ¬ (t.IsStray table ∧ behindOperand) ∧ fault = .unexpectedToken t

namespace Move

variable {σ τ ε η α β : Type} {state : σ → τ} {fault : ε → η} {finished : α → Move τ η β}
  {inner : Move σ ε α}

theorem within_eq_refuse {e : η} (move : inner.within state fault finished = .refuse e) :
    (∃ e', inner = .refuse e' ∧ e = fault e') ∨ ∃ a, inner = .finish a ∧ finished a = .refuse e := by
  cases inner with
  | shift s => cases move
  | finish a => exact .inr ⟨a, rfl, move⟩
  | refuse e' => exact .inl ⟨e', rfl, (Move.refuse.inj move).symm⟩
  | spoil e' => cases move

theorem within_eq_spoil {e : η} (move : inner.within state fault finished = .spoil e) :
    (∃ e', inner = .spoil e' ∧ e = fault e') ∨ ∃ a, inner = .finish a ∧ finished a = .spoil e := by
  cases inner with
  | shift s => cases move
  | finish a => exact .inr ⟨a, rfl, move⟩
  | refuse e' => cases move
  | spoil e' => exact .inl ⟨e', rfl, (Move.spoil.inj move).symm⟩

end Move

variable {table : OperatorTable} {t : Token}

theorem Reports.ne_end {behindOperand : Prop} {fault : Fault}
    (reports : Reports table t behindOperand fault) : fault ≠ .unexpectedEnd := by
  rcases reports with ⟨_, rfl⟩ | ⟨_, rfl⟩ <;> simp

/-- A number whose value cannot be converted. -/
def Token.Spoils (t : Token) (fault : Fault) : Prop :=
  t.kind = .number ∧ t.number? = .error fault

namespace Token

variable {fault : Fault}

theorem Spoils.cases (spoils : t.Spoils fault) :
    (∃ text, fault = .malformedNumber text) ∨ fault = .missingNumber := by
  obtain ⟨_, failed⟩ := spoils
  unfold number? at failed
  split at failed
  · cases failed
  · next text _ =>
    split at failed
    · cases failed
    · exact .inl ⟨text, (Except.error.inj failed).symm⟩
  · exact .inr (Except.error.inj failed).symm

theorem Spoils.ne_end (spoils : t.Spoils fault) : fault ≠ .unexpectedEnd := by
  rcases spoils.cases with ⟨text, rfl⟩ | rfl <;> simp

theorem WellFormed.not_spoils (wellFormed : t.WellFormed) : ¬ t.Spoils fault := by
  rintro ⟨kind, failed⟩
  obtain ⟨x, token⟩ := wellFormed.carries_number kind
  rw [number?, token.2] at failed
  cases failed

end Token

namespace PrototypeReading

theorem refuse_unexpected {r : PrototypeReading} {fault : Fault} (move : r.step t = .refuse fault) :
    fault = .unexpectedToken t := by
  unfold step at move
  split at move <;> cases move
  rfl

theorem step_ne_spoil {r : PrototypeReading} {fault : Fault} : r.step t ≠ .spoil fault := by
  unfold step
  split <;> simp

theorem atEnd_error {r : PrototypeReading} {fault : Fault} (early : r.atEnd = .error fault) :
    fault = .unexpectedEnd := by
  unfold atEnd at early
  split at early
  · cases early
  · exact (Except.error.inj early).symm

end PrototypeReading

namespace Expression

variable {bound : Bound}

theorem beginOperand_refuse {frames : List Frame} {fault : Fault}
    (move : beginOperand frames t = .refuse fault) : fault = .unexpectedToken t := by
  unfold beginOperand at move
  split at move
  · split at move <;> cases move
  · cases move
  · cases move
  · exact (Move.refuse.inj move).symm

theorem beginOperand_spoil {frames : List Frame} {fault : Fault}
    (move : beginOperand frames t = .spoil fault) : t.Spoils fault := by
  unfold beginOperand at move
  split at move
  · next kind =>
    split at move
    · cases move
    · next failed =>
      obtain rfl := Move.spoil.inj move
      exact ⟨kind, failed⟩
  · cases move
  · cases move
  · cases move

theorem continueWith_refuse {frames : List Frame} {operand : Node} {fault : Fault}
    (move : continueWith table bound frames operand t = .refuse fault) :
    table.powerOf? t.value.plain = none ∧ fault = .unknownOperator t.value.plain := by
  unfold continueWith at move
  split at move
  · next unknown => exact ⟨unknown, (Move.refuse.inj move).symm⟩
  · split at move
    · split at move <;> cases move
    · cases move

theorem close_refuse {frames : List Frame} {operand : Node} {fault : Fault}
    (move : close frames operand t = .refuse fault) : fault = .unexpectedToken t := by
  unfold close at move
  split at move
  · split at move
    · cases move
    · exact (Move.refuse.inj move).symm
  · split at move
    · cases move
    · cases move
    · exact (Move.refuse.inj move).symm
  · cases move

theorem afterOperand_refuse {frames : List Frame} {operand : Node} {fault : Fault}
    (move : afterOperand table bound frames operand t = .refuse fault) :
    Reports table t True fault := by
  unfold afterOperand at move
  split at move
  · cases move
  · split at move
    · next kind =>
      obtain ⟨unknown, rfl⟩ := continueWith_refuse move
      exact .inl ⟨⟨⟨kind, unknown⟩, trivial⟩, rfl⟩
    · next kind => exact .inr ⟨fun stray => kind stray.1.1, close_refuse move⟩

theorem step_refuse {r : Reading} {fault : Fault} (move : step table bound r t = .refuse fault) :
    Reports table t (r.focus.operand?.isSome = true) fault := by
  obtain ⟨frames, focus⟩ := r
  cases focus with
  | operand => exact .inr ⟨by simp [Focus.operand?], beginOperand_refuse move⟩
  | argument =>
    refine .inr ⟨by simp [Focus.operand?], ?_⟩
    simp only [step] at move
    split at move
    · split at move
      · cases move
      · exact beginOperand_refuse move
    · exact beginOperand_refuse move
  | name text =>
    simp only [step] at move
    split at move
    · cases move
    · simpa [Reports, Focus.operand?] using afterOperand_refuse move
  | complete operand => simpa [Reports, Focus.operand?] using afterOperand_refuse move

theorem afterOperand_ne_spoil {frames : List Frame} {operand : Node} {fault : Fault} :
    afterOperand table bound frames operand t ≠ .spoil fault := by
  simp only [afterOperand, continueWith, close]
  split
  · simp
  · split
    · split
      · simp
      · split
        · split <;> simp
        · simp
    · split
      · split <;> simp
      · split <;> simp
      · simp

theorem step_spoil {r : Reading} {fault : Fault} (move : step table bound r t = .spoil fault) :
    t.Spoils fault := by
  obtain ⟨frames, focus⟩ := r
  cases focus with
  | operand => exact beginOperand_spoil move
  | argument =>
    simp only [step] at move
    split at move
    · split at move
      · cases move
      · exact beginOperand_spoil move
    · exact beginOperand_spoil move
  | name text =>
    simp only [step] at move
    split at move
    · cases move
    · exact absurd move afterOperand_ne_spoil
  | complete operand => exact absurd move afterOperand_ne_spoil

theorem atEnd_error {r : Reading} {fault : Fault} (early : atEnd r = .error fault) :
    fault = .unexpectedEnd := by
  simp only [atEnd] at early
  split at early
  · split at early
    · cases early
    · exact (Except.error.inj early).symm
  · split at early
    · cases early
    · exact (Except.error.inj early).symm
  · exact (Except.error.inj early).symm

end Expression

namespace ItemReading

/-- The operand that stands complete at the place of reading. -/
def operand? : ItemReading → Option Node
  | .body _ r => r.focus.operand?
  | _ => none

theorem stepBody_refuse {p : Prototype} {r : Reading} {fault : Fault}
    (move : stepBody table p r t = .refuse fault) :
    Reports table t (r.focus.operand?.isSome = true) fault := by
  rcases Move.within_eq_refuse move with ⟨fault, inner, rfl⟩ | ⟨e, _, ended⟩
  · exact Expression.step_refuse inner
  · cases ended

theorem stepBody_spoil {p : Prototype} {r : Reading} {fault : Fault}
    (move : stepBody table p r t = .spoil fault) : t.Spoils fault := by
  rcases Move.within_eq_spoil move with ⟨fault, inner, rfl⟩ | ⟨e, _, ended⟩
  · exact Expression.step_spoil inner
  · cases ended

theorem step_refuse {r : ItemReading} {fault : Fault} (move : r.step table t = .refuse fault) :
    Reports table t (r.operand?.isSome = true) fault := by
  cases r with
  | declaration r =>
    refine .inr ⟨by simp [operand?], ?_⟩
    rcases Move.within_eq_refuse move with ⟨fault, inner, rfl⟩ | ⟨p, _, ended⟩
    · exact PrototypeReading.refuse_unexpected inner
    · cases ended
  | definition r =>
    rcases Move.within_eq_refuse move with ⟨fault, inner, rfl⟩ | ⟨p, _, entered⟩
    · exact .inr ⟨by simp [operand?], PrototypeReading.refuse_unexpected inner⟩
    · exact stepBody_refuse entered
  | body p r => exact stepBody_refuse move

theorem step_spoil {r : ItemReading} {fault : Fault} (move : r.step table t = .spoil fault) :
    t.Spoils fault := by
  cases r with
  | declaration r =>
    rcases Move.within_eq_spoil move with ⟨_, inner, _⟩ | ⟨p, _, ended⟩
    · exact absurd inner PrototypeReading.step_ne_spoil
    · cases ended
  | definition r =>
    rcases Move.within_eq_spoil move with ⟨_, inner, _⟩ | ⟨p, _, entered⟩
    · exact absurd inner PrototypeReading.step_ne_spoil
    · exact stepBody_spoil entered
  | body p r => exact stepBody_spoil move

theorem atEnd_error {r : ItemReading} {fault : Fault} (early : r.atEnd = .error fault) :
    fault = .unexpectedEnd := by
  cases r with
  | declaration r =>
    cases found : r.atEnd with
    | ok p => simp [atEnd, found, Except.map] at early
    | error fault' =>
      obtain rfl := PrototypeReading.atEnd_error found
      simpa [atEnd, found, Except.map, eq_comm] using early
  | definition r => exact (Except.error.inj early).symm
  | body p r =>
    cases found : Expression.atEnd r with
    | ok e => simp [atEnd, found, Except.map] at early
    | error fault' =>
      obtain rfl := Expression.atEnd_error found
      simpa [atEnd, found, Except.map, eq_comm] using early

/-- An item that may end is not carried on by an operator behind its last operand. -/
theorem not_stray_of_finish {r : ItemReading} {node : Node} (move : r.step table t = .finish node) :
    ¬ (t.IsStray table ∧ r.operand?.isSome = true) := by
  rintro ⟨⟨kind, _⟩, complete⟩
  obtain ⟨_, stops⟩ := atEnd_of_finish move
  cases r with
  | body p r => exact (stops p r rfl).1 kind
  | declaration r => simp [operand?] at complete
  | definition r => simp [operand?] at complete

end ItemReading

namespace ProgramReading

def operand? (r : ProgramReading) : Option Node := r.current.bind ItemReading.operand?

theorem begin_refuse {items : List Node} {e : ProgramFault}
    (move : begin table items t = .refuse e) : e = ⟨items.reverse, .unexpectedToken t⟩ := by
  unfold begin at move
  split at move
  · cases move
  · cases move
  · cases move
  · rcases Move.within_eq_refuse move with ⟨fault, inner, rfl⟩ | ⟨node, _, ended⟩
    · rcases ItemReading.step_refuse inner with ⟨⟨_, complete⟩, _⟩ | ⟨_, rfl⟩
      · simp [ItemReading.operand?, ItemReading.bare, Expression.start, Focus.operand?] at complete
      · rfl
    · cases ended

theorem step_refuse {r : ProgramReading} {e : ProgramFault} (move : step table r t = .refuse e) :
    Reports table t (r.operand?.isSome = true) e.fault := by
  obtain ⟨items, current⟩ := r
  cases current with
  | none =>
    obtain rfl := begin_refuse move
    exact .inr ⟨by simp [operand?], rfl⟩
  | some item =>
    rcases Move.within_eq_refuse move with ⟨fault, inner, rfl⟩ | ⟨node, finish, begun⟩
    · exact ItemReading.step_refuse inner
    · obtain rfl := begin_refuse begun
      exact .inr ⟨ItemReading.not_stray_of_finish finish, rfl⟩

theorem begin_spoil {items : List Node} {e : ProgramFault}
    (move : begin table items t = .spoil e) : t.Spoils e.fault := by
  unfold begin at move
  split at move
  · cases move
  · cases move
  · cases move
  · rcases Move.within_eq_spoil move with ⟨fault, inner, rfl⟩ | ⟨node, _, ended⟩
    · exact ItemReading.step_spoil inner
    · cases ended

theorem step_spoil {r : ProgramReading} {e : ProgramFault} (move : step table r t = .spoil e) :
    t.Spoils e.fault := by
  obtain ⟨items, current⟩ := r
  cases current with
  | none => exact begin_spoil move
  | some item =>
    rcases Move.within_eq_spoil move with ⟨fault, inner, rfl⟩ | ⟨node, _, begun⟩
    · exact ItemReading.step_spoil inner
    · exact begin_spoil begun

theorem atEnd_error {r : ProgramReading} {e : ProgramFault} (early : r.atEnd = .error e) :
    e = ⟨r.items.reverse, .unexpectedEnd⟩ ∧
      ∃ item, r.current = some item ∧ item.atEnd = .error .unexpectedEnd := by
  obtain ⟨items, current⟩ := r
  cases current with
  | none => simp [atEnd] at early
  | some item =>
    cases found : item.atEnd with
    | ok node => simp [atEnd, found] at early
    | error fault =>
      obtain rfl := ItemReading.atEnd_error found
      simp only [atEnd, found, Except.error.injEq] at early
      exact ⟨early.symm, item, rfl, found⟩

/-- A run over well-formed tokens fails at their end, or at one of them that is refused. -/
theorem fails_cases {r : ProgramReading} {e : ProgramFault} {tokens rest : List Token}
    (wellFormed : ∀ t ∈ tokens, t.WellFormed) (fails : (whole table).Fails r e tokens rest) :
    (rest = [] ∧ ∃ last, (whole table).Shifts r tokens last ∧ last.atEnd = .error e) ∨
      ∃ (w more : List Token) (t : Token) (last : ProgramReading), tokens = w ++ t :: more ∧
        rest = t :: more ∧ (whole table).Shifts r w last ∧ step table last t = .refuse e := by
  cases fails with
  | atEnd shifts early => exact .inl ⟨rfl, _, shifts, early⟩
  | refused shifts _ move => exact .inr ⟨_, _, _, _, rfl, rfl, shifts, move⟩
  | spoilt shifts _ move => exact absurd (step_spoil move) (wellFormed _ (by simp)).not_spoils

end ProgramReading

end Formulary
