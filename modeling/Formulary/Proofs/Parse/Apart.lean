import Formulary.Proofs.Parse.Refusal

/-!
Items are read apart from each other. A program that may end goes on, at a token that cannot
belong to its last item, as if it began there; what it has read already is only kept. One that may
not end is stopped by a semicolon, wherever it stands.
-/
namespace Formulary

namespace Machine

variable {σ τ ε η α β : Type}

/-- A machine that makes the moves of another one, up to a translation, comes to its outcome and
leaves the same tokens. -/
theorem run_within {m : Machine σ ε α} {n : Machine τ η β} (state : σ → τ) (fault : ε → η)
    (result : α → β)
    (step : ∀ s t, n.step (state s) t =
      (m.step s t).within state fault fun a => .finish (result a))
    (atEnd : ∀ s, n.atEnd (state s) = ((m.atEnd s).mapError fault).map result)
    (s : σ) (tokens : List Token) :
    n.run (state s) tokens =
      (((m.run s tokens).1.mapError fault).map result, (m.run s tokens).2) := by
  induction tokens generalizing s with
  | nil => simp only [run, atEnd]
  | cons t tokens ih =>
    simp only [run, step]
    split
    · simp only [atEnd]
    · cases m.step s t with
      | shift next => exact ih next
      | finish a => rfl
      | refuse e => rfl
      | spoil e => rfl

end Machine

/-- The reading of a program behind items that were read before it. -/
def ProgramReading.behind (nodes : List Node) (r : ProgramReading) : ProgramReading :=
  ⟨r.items ++ nodes.reverse, r.current⟩

def ProgramFault.behind (nodes : List Node) (e : ProgramFault) : ProgramFault :=
  ⟨nodes ++ e.items, e.fault⟩

variable {table : OperatorTable}

namespace ProgramReading

/-- What a program does with its next token once the items before it are set aside. -/
def moveBehind (nodes : List Node) (move : Move ProgramReading ProgramFault (List Node)) :
    Move ProgramReading ProgramFault (List Node) :=
  move.within (behind nodes) (.behind nodes) fun others => .finish (nodes ++ others)

theorem stepItem_behind {nodes items : List Node} {r : ItemReading} {t : Token}
    {next next' : Node → Move ProgramReading ProgramFault (List Node)}
    (after : ∀ node, next' node = moveBehind nodes (next node)) :
    stepItem table (items ++ nodes.reverse) r t next' =
      moveBehind nodes (stepItem table items r t next) := by
  simp only [stepItem]
  cases r.step table t with
  | shift s => rfl
  | finish node => exact after node
  | refuse fault => simp [Move.within, moveBehind, ProgramFault.behind]
  | spoil fault => simp [Move.within, moveBehind, ProgramFault.behind]

theorem begin_behind (nodes items : List Node) (t : Token) :
    begin table (items ++ nodes.reverse) t = moveBehind nodes (begin table items t) := by
  simp only [begin]
  split
  · rfl
  · rfl
  · rfl
  · apply stepItem_behind
    intro node
    simp [Move.within, moveBehind]

theorem step_behind (nodes : List Node) (r : ProgramReading) (t : Token) :
    step table (r.behind nodes) t = moveBehind nodes (step table r t) := by
  obtain ⟨items, current⟩ := r
  cases current with
  | none => exact begin_behind nodes items t
  | some item =>
    apply stepItem_behind
    intro node
    exact begin_behind nodes (node :: items) t

theorem atEnd_behind (nodes : List Node) (r : ProgramReading) :
    (r.behind nodes).atEnd = (r.atEnd.mapError (.behind nodes)).map (nodes ++ ·) := by
  obtain ⟨items, current⟩ := r
  cases current with
  | none =>
    simp only [atEnd, behind, List.reverse_append, List.reverse_reverse]
    rfl
  | some item =>
    simp only [atEnd, behind]
    cases item.atEnd with
    | ok node =>
      simp only [List.reverse_cons, List.reverse_append, List.reverse_reverse, List.append_assoc]
      rfl
    | error fault =>
      simp only [List.reverse_append, List.reverse_reverse]
      rfl

theorem run_behind (nodes : List Node) (r : ProgramReading) (tokens : List Token) :
    (whole table).run (r.behind nodes) tokens =
      ((((whole table).run r tokens).1.mapError (.behind nodes)).map (nodes ++ ·),
        ((whole table).run r tokens).2) :=
  Machine.run_within (m := whole table) (n := whole table) (behind nodes) (.behind nodes) (nodes ++ ·)
    (step_behind nodes) (atEnd_behind nodes) r tokens

/-- A program that may end and one that begins behind its items do the same from a token on that
belongs to none of them. -/
theorem run_resting {r : ProgramReading} {nodes : List Node} {tokens : List Token}
    (rests : r.atEnd = .ok nodes)
    (apart : ∀ t ∈ tokens.head?, t.kind ≠ .operator ∧ t.kind ≠ .opening) :
    (whole table).run r tokens = (whole table).run (start.behind nodes) tokens := by
  have ends : (start.behind nodes).atEnd = .ok nodes := by simp [start, behind, atEnd]
  cases tokens with
  | nil =>
    have same : r.atEnd = (start.behind nodes).atEnd := rests.trans ends.symm
    simp only [Machine.run, whole, machine, same]
  | cons t tokens =>
    obtain ⟨operator, opening⟩ := apart t rfl
    have stops (s : ProgramReading) : s.Stops t := by
      intro item _ p e _
      exact ⟨operator, fun opens => absurd opens opening⟩
    have same : step table r t = step table (start.behind nodes) t := by
      rw [step_resting rests (stops r), step_resting ends (stops _)]
    simp only [Machine.run, whole, machine, same, rests, ends]

end ProgramReading

theorem parse_append {first : List Token} {nodes : List Node} {second : List Token}
    (live : ∀ t ∈ first, t.kind ≠ .ending) (parse : (parseTokens table first).1 = .ok nodes)
    (apart : ∀ t ∈ second.head?, t.kind ≠ .operator ∧ t.kind ≠ .opening) :
    parseTokens table (first ++ second) =
      (((parseTokens table second).1.mapError (.behind nodes)).map (nodes ++ ·),
        (parseTokens table second).2) := by
  obtain ⟨_, last, shifts, rests⟩ := atEnd_of_parse live (Prod.ext parse rfl)
  calc parseTokens table (first ++ second) = (ProgramReading.whole table).run last second :=
        Machine.run_shifts shifts second
    _ = (ProgramReading.whole table).run (ProgramReading.start.behind nodes) second :=
        ProgramReading.run_resting rests apart
    _ = _ := ProgramReading.run_behind nodes .start second

/-! ## A semicolon behind an unfinished program -/

theorem Expression.step_separator {r : Reading} {fault : Fault} {t : Token}
    (early : Expression.atEnd r = .error fault) (kind : t.kind = .separator) :
    Expression.step table (.atLeast 0) r t = .refuse (.unexpectedToken t) := by
  obtain ⟨frames, focus⟩ := r
  cases complete : focus.operand? with
  | none =>
    cases focus with
    | operand => simp [step, beginOperand, kind]
    | argument =>
      simp only [step]
      split <;> simp [beginOperand, kind]
    | name text => simp [Focus.operand?] at complete
    | complete e => simp [Focus.operand?] at complete
  | some operand =>
    rw [step_complete complete (by simp [kind]), afterOperand_within (by simp),
      if_neg (by simp [kind])]
    rcases settled : settle 0 frames operand with ⟨_ | ⟨frame, outer⟩, whole⟩
    · have ends : atEnd ⟨frames, focus⟩ = .ok whole :=
        atEnd_eq_ok_iff.mpr ⟨operand, complete, settled⟩
      rw [ends] at early
      cases early
    · cases frame with
      | operation left op power => exact absurd (settled_head settled) (by simp [Frame.isOperation])
      | group => simp only [close, settled, kind]
      | call callee args => simp only [close, settled, kind]

theorem PrototypeReading.step_separator {r : PrototypeReading} {t : Token}
    (kind : t.kind = .separator) :
    r.step t = .refuse (.unexpectedToken t) ∨ ∃ p, r = .complete p := by
  cases r with
  | complete p => exact .inr ⟨p, rfl⟩
  | _ => simp [step, kind]

theorem ItemReading.step_separator {r : ItemReading} {fault : Fault} {t : Token}
    (early : r.atEnd = .error fault) (kind : t.kind = .separator) :
    r.step table t = .refuse (.unexpectedToken t) := by
  cases r with
  | declaration r =>
    rcases PrototypeReading.step_separator (r := r) kind with refused | ⟨p, rfl⟩
    · simp only [step, refused, Move.within, id]
    · cases early
  | definition r =>
    rcases PrototypeReading.step_separator (r := r) kind with refused | ⟨p, rfl⟩
    · simp only [step, refused, Move.within, id]
    · have refused : Expression.step table (.atLeast 0) Expression.start t =
          .refuse (.unexpectedToken t) := Expression.step_separator rfl kind
      simp only [step, PrototypeReading.step, Move.within, stepBody, bound, refused, id]
  | body p r =>
    cases found : Expression.atEnd r with
    | ok e => simp [atEnd, found, Except.map] at early
    | error fault' =>
      have refused : Expression.step table (.atLeast 0) r t = .refuse (.unexpectedToken t) :=
        Expression.step_separator found kind
      simp only [step, stepBody, bound, refused, Move.within, id]

theorem ProgramReading.step_separator {r : ProgramReading} {e : ProgramFault} {t : Token}
    (early : r.atEnd = .error e) (kind : t.kind = .separator) :
    step table r t = .refuse ⟨e.items, .unexpectedToken t⟩ := by
  obtain ⟨rfl, item, current, unfinished⟩ := atEnd_error early
  have refused : item.step table t = .refuse (.unexpectedToken t) :=
    item.step_separator unfinished kind
  simp only [step, current, stepItem, refused, Move.within]

/-- A semicolon behind an unfinished program is at fault itself if the program only ended too
early. -/
theorem parse_separator {first rest : List Token} {e : ProgramFault} {separator : Token}
    (live : ∀ t ∈ first, t.kind ≠ .ending) (parse : parseTokens table first = (.error e, rest))
    (kind : separator.kind = .separator) (second : List Token) :
    (e.fault ≠ .unexpectedEnd → parseTokens table (first ++ separator :: second) =
      (.error e, rest ++ separator :: second)) ∧
    (e.fault = .unexpectedEnd → parseTokens table (first ++ separator :: second) =
      (.error ⟨e.items, .unexpectedToken separator⟩, separator :: second)) := by
  have fails : (ProgramReading.whole table).Fails .start e first rest :=
    Machine.fails_of_run live parse
  cases fails with
  | atEnd shifts early =>
    have same : e.fault = .unexpectedEnd :=
      congrArg ProgramFault.fault (ProgramReading.atEnd_error early).1
    refine ⟨fun other => absurd same other, fun _ => ?_⟩
    exact Machine.run_of_fails (.refused shifts (by simp [kind])
      (ProgramReading.step_separator early kind))
  | refused shifts here move =>
    have reports := ProgramReading.step_refuse move
    refine ⟨fun _ => ?_, fun same => absurd same reports.ne_end⟩
    rw [List.append_assoc, List.cons_append]
    exact Machine.run_of_fails (.refused shifts here move)
  | spoilt shifts here move =>
    have spoils := ProgramReading.step_spoil move
    refine ⟨fun _ => ?_, fun same => absurd same spoils.ne_end⟩
    rw [List.append_assoc, List.cons_append]
    exact Machine.run_of_fails (.spoilt shifts here move)

/-- Behind an accepted program, tokens that do not carry its last item on are read as if they stood
alone. Behind one that is not accepted, a semicolon changes nothing, unless the program only ended
too early: then the semicolon is at fault. -/
theorem program_append (table : OperatorTable) (first second : List Token)
    (live : ∀ t ∈ first, t.kind ≠ .ending) :
    (∀ (nodes : List Node) (p : Parser), (Parser.mk first 0 table).program = (.ok nodes, p) →
      (∀ t ∈ second.head?, t.kind ≠ .operator ∧ t.kind ≠ .opening) →
        (∀ (others : List Node) (q : Parser),
          (Parser.mk second 0 table).program = (.ok others, q) →
            (Parser.mk (first ++ second) 0 table).program =
              (.ok (nodes ++ others), ⟨first ++ second, first.length + q.position, table⟩)) ∧
        (∀ (items : List Node) (fault : Fault) (q : Parser),
          (Parser.mk second 0 table).program = (.error ⟨items, fault⟩, q) →
            (Parser.mk (first ++ second) 0 table).program =
              (.error ⟨nodes ++ items, fault⟩,
                ⟨first ++ second, first.length + q.position, table⟩))) ∧
    (∀ (items : List Node) (fault : Fault) (p : Parser) (separator : Token),
      (Parser.mk first 0 table).program = (.error ⟨items, fault⟩, p) →
        separator.kind = .separator →
          (fault ≠ .unexpectedEnd → (Parser.mk (first ++ separator :: second) 0 table).program =
            (.error ⟨items, fault⟩, ⟨first ++ separator :: second, p.position, table⟩)) ∧
          (fault = .unexpectedEnd → (Parser.mk (first ++ separator :: second) 0 table).program =
            (.error ⟨items, .unexpectedToken separator⟩,
              ⟨first ++ separator :: second, first.length, table⟩))) := by
  simp only [program_eq]
  constructor
  · intro nodes p parse apart
    have joined := parse_append live (congrArg Prod.fst parse) apart
    have shorter := ((ProgramReading.whole table).run_suffix .start second).length_le
    have position : (first ++ second).length - (parseTokens table second).2.length =
        first.length + (second.length - (parseTokens table second).2.length) := by
      rw [List.length_append]
      exact Nat.add_sub_assoc shorter first.length
    constructor
    · intro others q alone
      obtain ⟨outcome, rfl⟩ := Prod.mk.injEq .. ▸ alone
      rw [joined, position, outcome]
      rfl
    · intro items fault q alone
      obtain ⟨outcome, rfl⟩ := Prod.mk.injEq .. ▸ alone
      rw [joined, position, outcome]
      rfl
  · intro items fault p separator parse kind
    obtain ⟨outcome, rfl⟩ := Prod.mk.injEq .. ▸ parse
    obtain ⟨refused, early⟩ := parse_separator live (Prod.ext outcome rfl) kind second
    constructor
    · intro other
      rw [refused other, List.length_append, List.length_append, Nat.add_sub_add_right]
    · intro same
      rw [early same, List.length_append, Nat.add_sub_cancel]

/-- An item, and a call that the end or a semicolon cuts off. -/
theorem program_append_call :
    let f : Token := ⟨.name, .text "f", .nowhere⟩
    let opening : Token := ⟨.opening, .text "(", .nowhere⟩
    let separator : Token := ⟨.separator, .text ";", .nowhere⟩
    let item : List Node := [.bare (.reference "f")]
    let cut : List Token := [f, opening]
    (∀ t ∈ [f], t.kind ≠ .ending) ∧ (∀ t ∈ cut, t.kind ≠ .ending) ∧
      (Parser.mk [f] 0 .default).program = (.ok item, ⟨[f], 1, .default⟩) ∧
      (Parser.mk cut 0 .default).program = (.error ⟨[], .unexpectedEnd⟩, ⟨cut, 2, .default⟩) ∧
      (Parser.mk ([f] ++ [f]) 0 .default).program =
        (.ok (item ++ item), ⟨[f] ++ [f], 2, .default⟩) ∧
      (Parser.mk ([f] ++ cut) 0 .default).program =
        (.error ⟨item ++ [], .unexpectedEnd⟩, ⟨[f] ++ cut, 3, .default⟩) ∧
      (Parser.mk (cut ++ separator :: [f]) 0 .default).program =
        (.error ⟨[], .unexpectedToken separator⟩, ⟨cut ++ separator :: [f], 2, .default⟩) := by
  intro f opening separator item cut
  have whole : ∀ t ∈ [f], t.kind ≠ .ending := by decide
  have part : ∀ t ∈ cut, t.kind ≠ .ending := by decide
  have parse : (Parser.mk [f] 0 .default).program = (.ok item, ⟨[f], 1, .default⟩) := rfl
  have early : (Parser.mk cut 0 .default).program =
      (.error ⟨[], .unexpectedEnd⟩, ⟨cut, 2, .default⟩) := rfl
  obtain ⟨result, _⟩ := (program_append .default [f] [f] whole).1 item _ parse (by simp [f])
  obtain ⟨_, failure⟩ := (program_append .default [f] cut whole).1 item _ parse (by simp [cut, f])
  obtain ⟨_, stopped⟩ := (program_append .default cut [f] part).2 [] _ _ separator early rfl
  exact ⟨whole, part, parse, early, result item _ parse, failure [] _ _ early, stopped rfl⟩

end Formulary
