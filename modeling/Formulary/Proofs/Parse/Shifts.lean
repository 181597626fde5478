import Formulary.Parse.Machine

/-!
Runs of machines. A run shifts tokens for as long as it can and stops in front of the first one
that it cannot take. What holds of a run is proved of one shift and carried along the run here, so
that nothing later has to unfold a run again.
-/
namespace Formulary

namespace Machine

variable {σ τ ε η α β : Type}

/-- The machine takes all of the tokens and so gets from one state to another. -/
inductive Shifts (m : Machine σ ε α) : σ → List Token → σ → Prop where
  | nil (s : σ) : Shifts m s [] s
  | cons {s next last : σ} {t : Token} {w : List Token} (live : t.kind ≠ .ending)
      (move : m.step s t = .shift next) (tail : Shifts m next w last) : Shifts m s (t :: w) last

/-- The machine stops in front of the tokens with a result. -/
def Yields (m : Machine σ ε α) (s : σ) (a : α) : List Token → Prop
  | [] => m.atEnd s = .ok a
  | t :: _ => if t.kind = .ending then m.atEnd s = .ok a else m.step s t = .finish a

theorem Shifts.append {m : Machine σ ε α} {s middle last : σ} {v w : List Token}
    (first : m.Shifts s v middle) (second : m.Shifts middle w last) :
    m.Shifts s (v ++ w) last := by
  induction first with
  | nil s => exact second
  | cons live move tail ih => exact .cons live move (ih second)

theorem Shifts.snoc {m : Machine σ ε α} {s middle last : σ} {w : List Token} {t : Token}
    (first : m.Shifts s w middle) (live : t.kind ≠ .ending)
    (move : m.step middle t = .shift last) : m.Shifts s (w ++ [t]) last :=
  first.append (.cons live move (.nil last))

theorem run_shifts {m : Machine σ ε α} {s last : σ} {w : List Token}
    (shifts : m.Shifts s w last) (rest : List Token) : m.run s (w ++ rest) = m.run last rest := by
  induction shifts with
  | nil s => rfl
  | cons live move tail ih => simp only [List.cons_append, run, if_neg live, move, ih]

theorem run_of_yields {m : Machine σ ε α} {s : σ} {a : α} {rest : List Token}
    (result : m.Yields s a rest) : m.run s rest = (.ok a, rest) := by
  cases rest with
  | nil => simp only [run, show m.atEnd s = .ok a from result]
  | cons t rest =>
    simp only [Yields] at result
    split at result
    · next ending => simp only [run, if_pos ending, result]
    · next live => simp only [run, if_neg live, result]

/-- A run gives a result exactly when it can shift up to a place where it stops with that. -/
theorem run_eq_ok_iff {m : Machine σ ε α} {s : σ} {tokens rest : List Token} {a : α} :
    m.run s tokens = (.ok a, rest) ↔
      ∃ w last, tokens = w ++ rest ∧ m.Shifts s w last ∧ m.Yields last a rest := by
  constructor
  · intro run
    induction tokens generalizing s with
    | nil =>
      simp only [Machine.run, Prod.mk.injEq] at run
      obtain ⟨result, rfl⟩ := run
      exact ⟨[], s, rfl, .nil s, result⟩
    | cons t tokens ih =>
      simp only [Machine.run] at run
      split at run
      · next ending =>
        obtain ⟨result, rfl⟩ := Prod.mk.injEq .. ▸ run
        exact ⟨[], s, rfl, .nil s, by simpa only [Yields, if_pos ending] using result⟩
      · next live =>
        split at run
        · next next move =>
          obtain ⟨w, last, rfl, shifts, result⟩ := ih run
          exact ⟨t :: w, last, rfl, .cons live move shifts, result⟩
        · next found move =>
          obtain ⟨result, rfl⟩ := Prod.mk.injEq .. ▸ run
          obtain rfl := Except.ok.inj result
          exact ⟨[], s, rfl, .nil s, by simpa only [Yields, if_neg live] using move⟩
        · simp at run
        · simp at run
  · rintro ⟨w, last, rfl, shifts, result⟩
    rw [run_shifts shifts, run_of_yields result]

theorem Shifts.unique {m : Machine σ ε α} {s last other : σ} {w : List Token}
    (first : m.Shifts s w last) (second : m.Shifts s w other) : last = other := by
  induction first with
  | nil s =>
    cases second
    rfl
  | cons live move tail ih =>
    cases second with
    | cons _ move' tail' =>
      obtain rfl := Move.shift.inj (move.symm.trans move')
      exact ih tail'

theorem Shifts.split {m : Machine σ ε α} {s last : σ} {v w : List Token}
    (shifts : m.Shifts s (v ++ w) last) :
    ∃ middle, m.Shifts s v middle ∧ m.Shifts middle w last := by
  induction v generalizing s with
  | nil => exact ⟨s, .nil s, shifts⟩
  | cons t v ih =>
    cases shifts with
    | cons live move tail =>
      obtain ⟨middle, first, second⟩ := ih tail
      exact ⟨middle, .cons live move first, second⟩

/-- How a run comes to a fault: the tokens end too early, or one of them is refused or spoilt. The
last list is that of the tokens that were not taken. -/
inductive Fails (m : Machine σ ε α) (s : σ) (e : ε) : List Token → List Token → Prop where
  | atEnd {last : σ} {w : List Token} (shifts : m.Shifts s w last)
      (early : m.atEnd last = .error e) : Fails m s e w []
  | refused {last : σ} {t : Token} {w rest : List Token} (shifts : m.Shifts s w last)
      (live : t.kind ≠ .ending) (move : m.step last t = .refuse e) :
      Fails m s e (w ++ t :: rest) (t :: rest)
  | spoilt {last : σ} {t : Token} {w rest : List Token} (shifts : m.Shifts s w last)
      (live : t.kind ≠ .ending) (move : m.step last t = .spoil e) :
      Fails m s e (w ++ t :: rest) rest

theorem Fails.cons {m : Machine σ ε α} {s next : σ} {e : ε} {t : Token} {w rest : List Token}
    (live : t.kind ≠ .ending) (move : m.step s t = .shift next) (fails : m.Fails next e w rest) :
    m.Fails s e (t :: w) rest := by
  cases fails with
  | atEnd shifts early => exact .atEnd (.cons live move shifts) early
  | refused shifts live' move' => exact .refused (.cons live move shifts) live' move'
  | spoilt shifts live' move' => exact .spoilt (.cons live move shifts) live' move'

theorem run_of_fails {m : Machine σ ε α} {s : σ} {tokens rest : List Token} {e : ε}
    (fails : m.Fails s e tokens rest) : m.run s tokens = (.error e, rest) := by
  cases fails with
  | atEnd shifts early =>
    have run := run_shifts shifts []
    rw [List.append_nil] at run
    simp only [run, Machine.run, early]
  | refused shifts here move => simp only [run_shifts shifts, Machine.run, if_neg here, move]
  | spoilt shifts here move => simp only [run_shifts shifts, Machine.run, if_neg here, move]

/-- Tokens none of which ends the input run into a fault in one of these ways. -/
theorem fails_of_run {m : Machine σ ε α} {s : σ} {tokens rest : List Token} {e : ε}
    (live : ∀ t ∈ tokens, t.kind ≠ .ending) (run : m.run s tokens = (.error e, rest)) :
    m.Fails s e tokens rest := by
  induction tokens generalizing s with
  | nil =>
    obtain ⟨early, rfl⟩ := Prod.mk.injEq .. ▸ run
    exact .atEnd (.nil s) early
  | cons t tokens ih =>
    obtain ⟨here, later⟩ := List.forall_mem_cons.mp live
    simp only [Machine.run, if_neg here] at run
    split at run
    · next next move => exact .cons here move (ih later run)
    · simp at run
    · next fault move =>
      obtain ⟨same, rfl⟩ := Prod.mk.injEq .. ▸ run
      obtain rfl := Except.error.inj same
      exact .refused (w := []) (.nil s) here move
    · next fault move =>
      obtain ⟨same, rfl⟩ := Prod.mk.injEq .. ▸ run
      obtain rfl := Except.error.inj same
      exact .spoilt (w := []) (.nil s) here move

theorem run_suffix (m : Machine σ ε α) (s : σ) (tokens : List Token) :
    (m.run s tokens).2 <:+ tokens := by
  induction tokens generalizing s with
  | nil => exact List.suffix_refl _
  | cons t tokens ih =>
    simp only [run]
    split
    · exact List.suffix_refl _
    · split
      · exact (ih _).trans (List.suffix_cons t tokens)
      · exact List.suffix_refl _
      · exact List.suffix_refl _
      · exact List.suffix_cons t tokens

/-- What a shift keeps true of the state and the tokens taken so far, a run keeps true. -/
theorem Shifts.preserves {m : Machine σ ε α} (inv : σ → List Token → Prop)
    (step : ∀ s v t next, inv s v → m.step s t = .shift next → inv next (v ++ [t]))
    {s last : σ} {w : List Token} (shifts : m.Shifts s w last) {v : List Token}
    (start : inv s v) : inv last (v ++ w) := by
  induction shifts generalizing v with
  | nil s => simpa using start
  | cons live move tail ih => simpa using ih (step _ _ _ _ start move)

/-- A machine that takes every shift of another one takes its runs. -/
theorem Shifts.lift {m : Machine σ ε α} {n : Machine τ η β} (state : σ → τ)
    (step : ∀ s t next, m.step s t = .shift next → n.step (state s) t = .shift (state next))
    {s last : σ} {w : List Token} (shifts : m.Shifts s w last) :
    n.Shifts (state s) w (state last) := by
  induction shifts with
  | nil s => exact .nil _
  | cons live move tail ih => exact .cons live (step _ _ _ move) ih

end Machine

end Formulary
