/-!
Association lists that keep keys in the order in which they first came. Putting in a key that is
there already changes its value and nothing else; looking up sees the last value put in.
-/
namespace Formulary

namespace Assoc

variable {α β : Type} [DecidableEq α]

/-- Changes the value of a key that is present and appends one that is not. -/
def put (key : α) (value : β) : List (α × β) → List (α × β)
  | [] => [(key, value)]
  | (k, v) :: rest => if k = key then (k, value) :: rest else (k, v) :: put key value rest

/-- Puts in entries in order. -/
def putAll (base entries : List (α × β)) : List (α × β) :=
  entries.foldl (fun table entry => put entry.1 entry.2 table) base

theorem lookup_put_self (key : α) (value : β) (table : List (α × β)) :
    (put key value table).lookup key = some value := by
  induction table with
  | nil => simp [put]
  | cons entry rest ih =>
    obtain ⟨k, v⟩ := entry
    by_cases h : k = key
    · simp [put, h]
    · have : (key == k) = false := by simp [Ne.symm h]
      simp only [put, if_neg h, List.lookup_cons, this, ih]

theorem lookup_put_of_ne {key other : α} (h : other ≠ key) (value : β) (table : List (α × β)) :
    (put key value table).lookup other = table.lookup other := by
  induction table with
  | nil => simp [put, h]
  | cons entry rest ih =>
    obtain ⟨k, v⟩ := entry
    by_cases hk : k = key
    · have : (other == k) = false := by simp [hk, h]
      simp [put, hk, List.lookup_cons, hk ▸ this]
    · simp only [put, if_neg hk, List.lookup_cons, ih]

/-- A key that is present keeps its place; one that is not comes last. -/
theorem keys_put (key : α) (value : β) (table : List (α × β)) :
    (put key value table).map (·.1) =
      if key ∈ table.map (·.1) then table.map (·.1) else table.map (·.1) ++ [key] := by
  induction table with
  | nil => simp [put]
  | cons entry rest ih =>
    by_cases h : entry.1 = key
    · simp [put, h]
    · have hk : key ≠ entry.1 := Ne.symm h
      simp only [put, if_neg h, List.map_cons, ih, List.mem_cons, hk, false_or]
      split <;> simp

theorem mem_keys_putAll {key : α} {base entries : List (α × β)} :
    key ∈ (putAll base entries).map (·.1) ↔
      key ∈ base.map (·.1) ∨ key ∈ entries.map (·.1) := by
  induction entries generalizing base with
  | nil => simp [putAll]
  | cons entry rest ih =>
    have step : putAll base (entry :: rest) = putAll (put entry.1 entry.2 base) rest := rfl
    rw [step, ih, keys_put, List.map_cons, List.mem_cons, ← or_assoc]
    split <;> grind

end Assoc

end Formulary
