import Formulary.Parse.Parser
import Formulary.Proofs.Parse.Shifts

/-!
How far a reading goes. It takes tokens from its position on, none of which ends the input, and what
remains for the next one is what the run of its machine has left.
-/
namespace Formulary

section

variable {σ ε α : Type}

theorem Machine.run_taken (m : Machine σ ε α) (s : σ) (tokens : List Token) :
    ∃ taken, tokens = taken ++ (m.run s tokens).2 ∧ ∀ t ∈ taken, t.kind ≠ .ending := by
  induction tokens generalizing s with
  | nil => exact ⟨[], rfl, by simp⟩
  | cons t tokens ih =>
    by_cases ending : t.kind = .ending
    · exact ⟨[], by simp [run, ending], by simp⟩
    · simp only [run, if_neg ending]
      cases m.step s t with
      | shift next =>
        obtain ⟨taken, same, live⟩ := ih next
        exact ⟨t :: taken, by simp [← same], by simpa [ending] using live⟩
      | finish a => exact ⟨[], rfl, by simp⟩
      | refuse e => exact ⟨[], rfl, by simp⟩
      | spoil e => exact ⟨[t], rfl, by simpa using ending⟩

namespace Parser

/-- The second parser stands in the tokens of the first one, where it did or further on, and no end
of the input lies between them. -/
structure Advances (p q : Parser) : Prop where
  tokens : q.tokens = p.tokens
  table : q.table = p.table
  forward : p.position ≤ q.position
  inside : q.position ≤ p.tokens.length
  live : ∀ t ∈ p.tokens.extract p.position q.position, t.kind ≠ .ending

theorem remaining_at (p : Parser) {taken rest : List Token} (same : p.remaining = taken ++ rest) :
    Parser.remaining ⟨p.tokens, p.position + taken.length, p.table⟩ = rest := by
  rw [remaining, ← List.drop_drop]
  simp only [remaining] at same
  rw [same, List.drop_left]

theorem read_eq_iff {p q : Parser} {m : Machine σ ε α} {s : σ} {outcome : Except ε α} :
    p.read m s = (outcome, q) ↔ ∃ taken rest, p.remaining = taken ++ rest ∧
      m.run s p.remaining = (outcome, rest) ∧
        q = ⟨p.tokens, p.position + taken.length, p.table⟩ := by
  obtain ⟨taken, same, _⟩ := m.run_taken s p.remaining
  have length : p.remaining.length - (m.run s p.remaining).2.length = taken.length := by
    have whole := congrArg List.length same
    rw [List.length_append] at whole
    omega
  constructor
  · intro read
    obtain ⟨rfl, rfl⟩ := Prod.mk.injEq .. ▸ read
    exact ⟨taken, _, same, rfl, by rw [length]⟩
  · rintro ⟨taken', rest, same', run, rfl⟩
    have whole := congrArg List.length same'
    rw [List.length_append] at whole
    have left : p.remaining.length - rest.length = taken'.length := by omega
    simp only [read, run, left]

theorem run_of_read {p q : Parser} {m : Machine σ ε α} {s : σ} {outcome : Except ε α}
    (read : p.read m s = (outcome, q)) : m.run s p.remaining = (outcome, q.remaining) := by
  obtain ⟨taken, rest, same, run, rfl⟩ := read_eq_iff.mp read
  rw [p.remaining_at same, run]

theorem read_advances {p : Parser} (inside : p.position ≤ p.tokens.length) (m : Machine σ ε α)
    (s : σ) : p.Advances (p.read m s).2 := by
  obtain ⟨taken, same, live⟩ := m.run_taken s p.remaining
  obtain ⟨taken', rest, same', run, reached⟩ := read_eq_iff.mp (Prod.eta (p.read m s)).symm
  rw [run] at same
  obtain rfl : taken = taken' := List.append_cancel_right (same.symm.trans same')
  have bound := congrArg List.length same
  rw [remaining, List.length_drop, List.length_append] at bound
  rw [reached]
  refine ⟨rfl, rfl, Nat.le_add_right _ _, ?_, ?_⟩
  · simp only
    omega
  · have between : p.tokens.extract p.position (p.position + taken.length) = taken := by
      rw [List.extract_eq_take_drop, Nat.add_sub_cancel_left]
      simp only [remaining] at same
      rw [same, List.take_left]
    rw [between]
    exact live

end Parser

end

end Formulary
