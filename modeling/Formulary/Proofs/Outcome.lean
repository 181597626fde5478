/-!
Outcomes of computations that may fail. One after another they succeed when each of them does, and
the first that fails decides how they end.
-/
namespace Formulary

variable {ε η α β : Type}

theorem bind_eq_ok {x : Except ε α} {f : α → Except ε β} {b : β} :
    x >>= f = .ok b ↔ ∃ a, x = .ok a ∧ f a = .ok b := by
  cases x with
  | error e => simp [bind, Except.bind]
  | ok a => simp [bind, Except.bind]

/-- The outcome is the fault, if there is one, and some result if not. -/
def Settles (fault? : Option ε) (outcome : Except ε α) : Prop :=
  match fault? with
  | some fault => outcome = .error fault
  | none => ∃ a, outcome = .ok a

theorem settles_ok (a : α) : Settles (ε := ε) none (.ok a) := ⟨a, rfl⟩

theorem Settles.bind {first? second? : Option ε} {first : Except ε α} {next : α → Except ε β}
    (settles : Settles first? first) (after : ∀ a, Settles second? (next a)) :
    Settles (first?.or second?) (first >>= next) := by
  cases first? with
  | some fault =>
    obtain rfl : first = .error fault := settles
    exact rfl
  | none =>
    obtain ⟨a, rfl⟩ := settles
    exact after a

theorem Settles.map {fault? : Option ε} {outcome : Except ε α} (settles : Settles fault? outcome)
    (f : α → β) : Settles fault? (outcome.map f) := by
  cases fault? with
  | some fault =>
    obtain rfl : outcome = .error fault := settles
    exact rfl
  | none =>
    obtain ⟨a, rfl⟩ := settles
    exact ⟨f a, rfl⟩

theorem Settles.mapError {fault? : Option ε} {outcome : Except ε α}
    (settles : Settles fault? outcome) (f : ε → η) :
    Settles (fault?.map f) (outcome.mapError f) := by
  cases fault? with
  | some fault =>
    obtain rfl : outcome = .error fault := settles
    exact rfl
  | none =>
    obtain ⟨a, rfl⟩ := settles
    exact ⟨a, rfl⟩

end Formulary
