import Formulary.Proofs.Source.Decomposition

/-!
Calls on a cursor. Tokens, words, numbers and characters may be called for in any order and from
anywhere in a text. Every call moves the cursor over the text that it takes, or fails and leaves it
where it is, so the place always is the one behind all the text that lies between.
-/
namespace Formulary

/-- The place behind a text that begins at this one. -/
def Place.onward (place : Place) (text : List Char) : Place :=
  ⟨place.line + text.count '\n',
    if '\n' ∈ text then (lastLine text).length + 1 else place.column + text.length⟩

theorem Place.pastAll_eq_onward (place : Place) (text : List Char) :
    place.pastAll text = place.onward text := by
  induction text using List.reverseRecOn with
  | nil => simp [pastAll, onward]
  | append_singleton text c ih =>
    have last : place.pastAll (text ++ [c]) = (place.onward text).past c := by
      rw [← ih]
      simp [pastAll]
    rw [last]
    by_cases feed : c = '\n'
    · subst feed
      simp [onward, past, lastLine, Int.add_assoc]
    · by_cases broken : '\n' ∈ text
      · simp [onward, past, lastLine, feed, broken, Ne.symm feed]
      · simp [onward, past, feed, broken, Ne.symm feed, Int.add_assoc]

theorem Place.onward_onward (place : Place) (v w : List Char) :
    (place.onward v).onward w = place.onward (v ++ w) := by
  simp only [← pastAll_eq_onward, pastAll, List.foldl_append]

theorem extract_append {source : List Char} {start here there : Nat} (first : start ≤ here)
    (second : here ≤ there) :
    source.extract start here ++ source.extract here there = source.extract start there := by
  have later : here = start + (here - start) := by omega
  have length : there - start = (here - start) + (there - here) := by omega
  simp only [List.extract_eq_take_drop]
  rw [length, List.take_add, List.drop_drop, ← later]

theorem numberRun_prefix (text : List Char) : numberRun text <+: text := by
  unfold numberRun
  split
  · next rest same =>
    have whole := (List.takeWhile_append_dropWhile (p := isDigit) (l := text)).symm
    rw [same] at whole
    obtain ⟨later, tail⟩ := List.takeWhile_prefix (l := rest) isDigit
    refine ⟨later, ?_⟩
    calc text.takeWhile isDigit ++ '.' :: rest.takeWhile isDigit ++ later
        = text.takeWhile isDigit ++ '.' :: (rest.takeWhile isDigit ++ later) := by simp
      _ = text := by rw [tail, ← whole]
  · exact List.takeWhile_prefix isDigit

theorem Lexeme.first_prefix (c : Char) (rest : List Char) :
    (Lexeme.first c rest).text <+: c :: rest := by
  have single : [c] <+: c :: rest := ⟨rest, rfl⟩
  unfold first
  split
  · exact List.takeWhile_prefix isWordChar
  · split
    · exact numberRun_prefix (c :: rest)
    · split
      · exact single
      · exact single

namespace Cursor

variable {s : Cursor}

/-! ## Moving -/

theorem eq_placed (s : Cursor) : s = placed s.source s.position s.place := by
  obtain ⟨source, position, place, rest, rfl⟩ := s
  rfl

theorem moveOver_eq (s : Cursor) (text : List Char) : s.moveOver text =
    placed s.source (s.position + text.length) (s.place.onward text) := by
  rw [eq_placed (s.moveOver text), ← Place.pastAll_eq_onward]
  rfl

theorem moveOver_nil (s : Cursor) : s.moveOver [] = s := by
  rw [moveOver_eq]
  simpa [Place.onward] using s.eq_placed.symm

theorem ahead_of_inside (inside : 0 ≤ s.position) : s.ahead = s.source.drop s.position.toNat := by
  rw [ahead, if_neg (Int.not_lt.mpr inside), s.rest_eq]

theorem next_of_ahead {c : Char} {rest : List Char} (inside : 0 ≤ s.position)
    (ahead : s.ahead = c :: rest) : s.next = .ok (c, s.moveOver [c]) := by
  rw [ahead_of_inside inside] at ahead
  have present : s.source[s.position.toNat]? = some c := by
    rw [← List.head?_drop, ahead, List.head?_cons]
  have within := (List.getElem?_eq_some_iff.mp present).1
  have before : ¬ s.atEnd = true := by
    simp only [atEnd, decide_eq_true_eq]
    omega
  simp only [next, if_neg before, if_neg (Int.not_lt.mpr inside)]
  rw [if_neg (by omega)]
  simp only [present]

theorem next_of_end (inside : 0 ≤ s.position) (ahead : s.ahead = []) :
    s.next = .error (.pastEnd s.position s.place.line) := by
  rw [ahead_of_inside inside, List.drop_eq_nil_iff] at ahead
  have ended : s.atEnd = true := by
    simp only [atEnd, decide_eq_true_eq]
    omega
  simp only [next, if_pos ended]

theorem ahead_skipBlanks (inside : 0 ≤ s.position) :
    s.skipBlanks.ahead = s.ahead.dropWhile isBlank := by
  have blanks := List.takeWhile_append_dropWhile (p := isBlank) (l := s.ahead)
  rw [skipBlanks, ahead_moveOver s _ inside]
  nth_rewrite 2 [← blanks]
  rw [List.drop_left]

theorem scan_moves (inside : 0 ≤ s.position) :
    ∃ text, text <+: s.ahead ∧ s.scan.2 = s.moveOver text := by
  simp only [scan]
  split
  · exact ⟨s.ahead.takeWhile isBlank, List.takeWhile_prefix isBlank, rfl⟩
  · next c rest ahead =>
    obtain ⟨later, tail⟩ := Lexeme.first_prefix c rest
    refine ⟨s.ahead.takeWhile isBlank ++ (Lexeme.first c rest).text, ⟨later, ?_⟩,
      moveOver_append inside _ _⟩
    rw [List.append_assoc, tail, ← ahead, ahead_skipBlanks inside,
      List.takeWhile_append_dropWhile]

/-! ## Calls -/

/-- What may be called for. -/
inductive Call where
  /-- The next token, or the one that stands for the end. -/
  | token
  | word
  | number
  /-- White space is passed over. -/
  | blanks
  /-- The next character, which stays. -/
  | peek
  /-- The next character. -/
  | next
  deriving DecidableEq, Repr

inductive Answer where
  | token (t : Token)
  | text (cs : List Char)
  | seen (c : Option Char)
  | nothing
  deriving DecidableEq, Repr

/-- The outcome of a call, and the cursor behind it. A call that fails leaves the cursor. -/
def keeping {α : Type} (s : Cursor) (answer : α → Answer) :
    Except CursorFault (α × Cursor) → Except CursorFault Answer × Cursor
  | .ok (a, next) => (.ok (answer a), next)
  | .error fault => (.error fault, s)

def perform (s : Cursor) : Call → Except CursorFault Answer × Cursor
  | .token => s.keeping .token s.nextToken
  | .word => s.keeping .text s.readWord
  | .number => (.ok (.text s.readNumber.1), s.readNumber.2)
  | .blanks => (.ok .nothing, s.skipBlanks)
  | .peek => (.ok (.seen s.peek), s)
  | .next => s.keeping (fun c => .text [c]) s.next

/-- The cursor behind calls made one after another, whether they fail or not. -/
def performAll (s : Cursor) (calls : List Call) : Cursor :=
  calls.foldl (fun s call => (s.perform call).2) s

/-- What a call does with the text that it takes. Only a character may be missing. -/
structure Moves (s : Cursor) (call : Call) (text : List Char) : Prop where
  ahead : text <+: s.ahead
  moved : (s.perform call).2 = s.moveOver text
  answer : ∀ cs, (s.perform call).1 = .ok (.text cs) → cs = text
  fails : ∀ fault, (s.perform call).1 = .error fault ↔
    call = .next ∧ s.ahead = [] ∧ fault = .pastEnd s.position s.place.line

theorem exists_moves (inside : 0 ≤ s.position) (call : Call) : ∃ text, s.Moves call text := by
  have known := Int.not_lt.mpr inside
  cases call with
  | token =>
    obtain ⟨text, ahead, moved⟩ := scan_moves inside
    have outcome : s.perform .token = (.ok (.token s.scan.1), s.scan.2) := by
      simp only [perform, nextToken, if_neg known, keeping]
    exact ⟨text, ahead, by rw [outcome, moved], by simp [outcome], by simp [outcome]⟩
  | word =>
    have outcome : s.perform .word = (.ok (.text (wordRun s.ahead)), s.moveOver (wordRun s.ahead)) := by
      simp only [perform, readWord, if_neg known, keeping]
    exact ⟨wordRun s.ahead, List.takeWhile_prefix isWordChar, by rw [outcome],
      by simp [outcome, eq_comm], by simp [outcome]⟩
  | number =>
    exact ⟨numberRun s.ahead, numberRun_prefix s.ahead, rfl, by simp [perform, readNumber, eq_comm],
      by simp [perform]⟩
  | blanks =>
    exact ⟨s.ahead.takeWhile isBlank, List.takeWhile_prefix isBlank, rfl, by simp [perform],
      by simp [perform]⟩
  | peek =>
    exact ⟨[], List.nil_prefix, (moveOver_nil s).symm, by simp [perform], by simp [perform]⟩
  | next =>
    cases ahead : s.ahead with
    | nil =>
      have outcome : s.perform .next = (.error (.pastEnd s.position s.place.line), s) := by
        simp only [perform, next_of_end inside ahead, keeping]
      exact ⟨[], List.nil_prefix, by rw [outcome, moveOver_nil], by simp [outcome],
        by simp [outcome, ahead, eq_comm]⟩
    | cons c rest =>
      have outcome : s.perform .next = (.ok (.text [c]), s.moveOver [c]) := by
        simp only [perform, next_of_ahead inside ahead, keeping]
      exact ⟨[c], ⟨rest, ahead.symm⟩, by rw [outcome], by simp [outcome, eq_comm],
        by simp [outcome, ahead]⟩

/-! ## Runs of calls -/

/-- The cursor stands in a text where the place has been counted from the start given. -/
def StandsAt (s : Cursor) (source : List Char) (start : Nat) (place : Place) (here : Nat) : Prop :=
  start ≤ here ∧ here ≤ source.length ∧
    s = placed source here (place.onward (source.extract start here))

theorem standsAt_moveOver {source : List Char} {start here : Nat} {place : Place}
    {text : List Char} (stands : s.StandsAt source start place here)
    (ahead : text <+: source.drop here) :
    (s.moveOver text).StandsAt source start place (here + text.length) ∧
      text = source.extract here (here + text.length) := by
  obtain ⟨after, inside, rfl⟩ := stands
  have bound := ahead.length_le
  have slice : text = source.extract here (here + text.length) := by
    rw [List.extract_eq_take_drop, Nat.add_sub_cancel_left]
    exact List.prefix_iff_eq_take.mp ahead
  refine ⟨⟨by omega, ?_, ?_⟩, slice⟩
  · rw [List.length_drop] at bound
    omega
  · rw [moveOver_eq]
    nth_rewrite 2 [slice]
    simp only [placed, Place.onward_onward, extract_append after (Nat.le_add_right here text.length)]
    push_cast
    rfl

theorem standsAt_perform {source : List Char} {start here : Nat} {place : Place}
    (stands : s.StandsAt source start place here) (call : Call) :
    ∃ text, s.Moves call text ∧ text = source.extract here (here + text.length) ∧
      (s.perform call).2.StandsAt source start place (here + text.length) := by
  obtain ⟨after, within, same⟩ := id stands
  have inside : 0 ≤ s.position := by
    rw [same]
    exact Int.natCast_nonneg here
  obtain ⟨text, moves⟩ := exists_moves inside call
  have ahead : text <+: source.drop here := by
    have front := moves.ahead
    rw [ahead_of_inside inside, same] at front
    exact front
  obtain ⟨moved, slice⟩ := standsAt_moveOver stands ahead
  exact ⟨text, moves, slice, moves.moved ▸ moved⟩

theorem standsAt_performAll {source : List Char} {start here : Nat} {place : Place}
    (stands : s.StandsAt source start place here) (calls : List Call) :
    ∃ there, here ≤ there ∧ (s.performAll calls).StandsAt source start place there := by
  induction calls generalizing s here with
  | nil => exact ⟨here, Nat.le_refl here, stands⟩
  | cons call calls ih =>
    obtain ⟨text, _, _, moved⟩ := standsAt_perform stands call
    obtain ⟨there, further, reached⟩ := ih moved
    exact ⟨there, by omega, reached⟩

/-- After any calls the cursor stands further on in the same text, or where it was, and its place
is the first one carried over the text between. The call after them goes no way back either. A text
that it gives is the one that it has moved over. It fails only where a character is called for at
the end, and then nothing changes. -/
theorem calls_keep_place (source : List Char) (place : Place) {start : Nat}
    (inside : start ≤ source.length) (calls : List Call) (call : Call) :
    let s := (placed source start place).performAll calls
    ∃ here there : Nat, start ≤ here ∧ here ≤ there ∧ there ≤ source.length ∧
      s = placed source here (place.onward (source.extract start here)) ∧
      (s.perform call).2 = placed source there (place.onward (source.extract start there)) ∧
      (∀ text, (s.perform call).1 = .ok (.text text) → text = source.extract here there) ∧
      ∀ fault, (s.perform call).1 = .error fault ↔
        call = .next ∧ here = source.length ∧ there = here ∧
          fault = .pastEnd here s.place.line := by
  intro s
  have begins : (placed source start place).StandsAt source start place start :=
    ⟨Nat.le_refl start, inside, by simp [Place.onward]⟩
  obtain ⟨here, before, stands⟩ := standsAt_performAll begins calls
  obtain ⟨text, moves, slice, moved⟩ := standsAt_perform stands call
  obtain ⟨_, within, same⟩ := stands
  obtain ⟨_, bound, reached⟩ := moved
  have position : s.position = here := congrArg Cursor.position same
  have ahead : s.ahead = source.drop here := by
    rw [ahead_of_inside (position ▸ Int.natCast_nonneg here), position]
    exact congrArg (·.drop here) (congrArg Cursor.source same)
  refine ⟨here, here + text.length, before, by omega, bound, same, reached, ?_, ?_⟩
  · intro cs given
    rw [moves.answer cs given]
    exact slice
  · intro fault
    rw [moves.fails fault, ahead, position, List.drop_eq_nil_iff]
    constructor
    · rintro ⟨rfl, ended, rfl⟩
      exact ⟨rfl, by omega, by omega, rfl⟩
    · rintro ⟨rfl, ended, _, rfl⟩
      exact ⟨rfl, by omega, rfl⟩

/-- A word and a number, with a line feed between them, and calls behind the end. -/
theorem calls_keep_place_lines :
    let source := ['a', 'b', '\n', '1', '.']
    let calls : List Call := [.word, .token, .next]
    let s := (placed source 1 ⟨4, 7⟩).performAll calls
    1 ≤ source.length ∧
      ∃ here there : Nat, 1 ≤ here ∧ here ≤ there ∧ there ≤ source.length ∧
        s = placed source here (Place.onward ⟨4, 7⟩ (source.extract 1 here)) ∧
        (s.perform .next).2 = placed source there (Place.onward ⟨4, 7⟩ (source.extract 1 there)) ∧
        (∀ text, (s.perform .next).1 = .ok (.text text) → text = source.extract here there) ∧
        ∀ fault, (s.perform .next).1 = .error fault ↔
          Call.next = .next ∧ here = source.length ∧ there = here ∧
            fault = .pastEnd here s.place.line := by
  intro source calls s
  exact ⟨by decide, calls_keep_place source ⟨4, 7⟩ (by decide) calls .next⟩

end Cursor

end Formulary
