import Formulary.Parse.Parser
import Formulary.Proofs.Parse.Shifts

/-!
The end of the input. A token that stands for it ends a run just as the end of the list does. The
run looks at that token and at none behind it, so what stands there plays no part in reading.
-/
namespace Formulary

section

variable {σ ε α : Type}

namespace Machine

/-- The tokens that a run looks at: those that it takes, and the one that it stops at. -/
def inspected (m : Machine σ ε α) (s : σ) : List Token → List Token
  | [] => []
  | t :: rest => t :: if t.kind = .ending then [] else match m.step s t with
    | .shift next => m.inspected next rest
    | _ => []

variable {m : Machine σ ε α}

/-- A run takes no other way when only the tokens are there that it looks at. -/
theorem run_inspected (m : Machine σ ε α) (s : σ) (tokens : List Token) :
    ∃ outcome taken next later, m.inspected s tokens = taken ++ next ∧ tokens = taken ++ later ∧
      m.run s (m.inspected s tokens) = (outcome, next) ∧ m.run s tokens = (outcome, later) := by
  induction tokens generalizing s with
  | nil => exact ⟨m.atEnd s, [], [], [], rfl, rfl, rfl, rfl⟩
  | cons t rest ih =>
    by_cases ending : t.kind = .ending
    · refine ⟨m.atEnd s, [], [t], t :: rest, ?_⟩
      simp [inspected, run, ending]
    · simp only [inspected, if_neg ending]
      cases move : m.step s t with
      | shift next =>
        obtain ⟨outcome, taken, seen, later, looked, whole, short, long⟩ := ih next
        refine ⟨outcome, t :: taken, seen, later, by simp [looked], by simp [← whole], ?_, ?_⟩
        · simpa only [run, if_neg ending, move] using short
        · simpa only [run, if_neg ending, move] using long
      | finish result =>
        exact ⟨.ok result, [], [t], t :: rest, by simp [run, ending, move]⟩
      | refuse fault =>
        exact ⟨.error fault, [], [t], t :: rest, by simp [run, ending, move]⟩
      | spoil fault =>
        exact ⟨.error fault, [t], [], rest, by simp [run, ending, move]⟩

end Machine

namespace Parser

end Parser

end

end Formulary
