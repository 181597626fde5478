import Formulary.Proofs.Parse.Viable

/-!
The report of the first fault. A stray operator is reported by its symbol exactly where an operand
of an expression ends. That an operand ends there shows as soon as one more operator has a power:
the longer table derives all that the shorter one does, and takes the same tokens up to there.
-/
namespace Formulary

/-- The other table has all operators of the first, with their powers. -/
def OperatorTable.Within (table wider : OperatorTable) : Prop :=
  ∀ (symbol : String) (power : Nat), table.powerOf? symbol = some power →
    wider.powerOf? symbol = some power

theorem isOperator_plus : isOperator '+' = true := by decide

/-- The table with one more operator, which counts if the table has none of that symbol. -/
def OperatorTable.withPlus (table : OperatorTable) : OperatorTable :=
  ⟨table.entries ++ [⟨'+', 0, isOperator_plus⟩]⟩

def plusToken : Token := ⟨.operator, .text "+", .nowhere⟩

variable {table wider : OperatorTable}

theorem powerOf_withPlus (symbol : String) : table.withPlus.powerOf? symbol =
    (table.powerOf? symbol).or (if symbol = "+" then some 0 else none) := by
  have plus : String.singleton '+' = "+" := rfl
  simp only [OperatorTable.powerOf?, OperatorTable.withPlus, List.find?_append, Option.map_or,
    List.find?_cons, plus]
  by_cases same : symbol = "+"
  · simp only [same, beq_self_eq_true, Option.map_some, if_true]
  · have other : ("+" == symbol) = false := beq_false_of_ne (Ne.symm same)
    simp only [other, List.find?_nil, Option.map_none, if_neg same]

theorem within_withPlus (table : OperatorTable) : table.Within table.withPlus := by
  intro symbol power known
  rw [powerOf_withPlus, known, Option.some_or]

theorem plusToken_known (table : OperatorTable) :
    ∃ power, table.withPlus.powerOf? plusToken.value.plain = some power := by
  have plain : plusToken.value.plain = "+" := rfl
  rw [plain, powerOf_withPlus]
  cases table.powerOf? "+" <;> simp

theorem derives_mono (within : table.Within wider) {category : Category} {w : List Token}
    (derivation : Derives table category w) : Derives wider category w := by
  induction derivation with
  | number kind => exact .number kind
  | name kind => exact .name kind
  | emptyCall kind opens closes => exact .emptyCall kind opens closes
  | call kind opens _ closes ih => exact .call kind opens ih closes
  | group opens _ closes ih => exact .group opens ih closes
  | single _ ih => exact .single ih
  | operation _ kind known _ ihFirst ihRest =>
    exact .operation ihFirst kind (within _ _ known) ihRest
  | argument _ ih => exact .argument ih
  | moreArguments _ kind _ ihFirst ihRest => exact .moreArguments ihFirst kind ihRest

theorem derivesProgram_mono (within : table.Within wider) {w : List Token}
    (derivation : DerivesProgram table w) : DerivesProgram wider w := by
  induction derivation with
  | nil => exact .nil
  | separator kind _ ih => exact .separator kind ih
  | definition kind signature body _ ih =>
    exact .definition kind signature (derives_mono within body) ih
  | declaration kind signature _ ih => exact .declaration kind signature ih
  | bare body _ ih => exact .bare (derives_mono within body) ih

theorem awaitsOperand_mono (within : table.Within wider) {w : List Token}
    (awaits : AwaitsOperand table w) : AwaitsOperand wider w := by
  induction awaits with
  | item before => exact .item (derivesProgram_mono within before)
  | body before kind signature =>
    exact .body (derivesProgram_mono within before) kind signature
  | group _ opens ih => exact .group ih opens
  | argument _ kind opens ih => exact .argument ih kind opens
  | nextArgument _ kind opens done between ih =>
    exact .nextArgument ih kind opens (derives_mono within done) between
  | operator _ first kind known ih =>
    exact .operator ih (derives_mono within first) kind (within _ _ known)

/-! ## The same shifts under a wider table -/

namespace Expression

theorem step_congr {bound : Bound} {r : Reading} {t : Token}
    (same : t.kind = .operator → table.powerOf? t.value.plain = wider.powerOf? t.value.plain) :
    step table bound r t = step wider bound r t := by
  have after (frames : List Frame) (operand : Node) :
      afterOperand table bound frames operand t = afterOperand wider bound frames operand t := by
    simp only [afterOperand]
    split
    · rfl
    · split
      · next kind => simp only [continueWith, same kind]
      · rfl
  simp only [step, after]

end Expression

namespace ProgramReading

theorem step_congr {r : ProgramReading} {t : Token}
    (same : t.kind = .operator → table.powerOf? t.value.plain = wider.powerOf? t.value.plain) :
    step table r t = step wider r t := by
  have items (item : ItemReading) : item.step table t = item.step wider t := by
    cases item <;> simp only [ItemReading.step, ItemReading.stepBody, Expression.step_congr same]
  have begins (nodes : List Node) : begin table nodes t = begin wider nodes t := by
    simp only [begin, stepItem, items]
  simp only [step, stepItem, items, begins]

end ProgramReading

theorem Expression.operator_of_shift {r next : Reading} {t : Token}
    (move : Expression.step table (.atLeast 0) r t = .shift next) (kind : t.kind = .operator) :
    r.focus.operand?.isSome = true ∧ ∃ power, table.powerOf? t.value.plain = some power := by
  cases Expression.takes_of_step move with
  | operator complete _ known => exact ⟨by simp [complete], _, known⟩
  | number _ other => simp [kind] at other
  | name _ other => simp [kind] at other
  | group _ other => simp [kind] at other
  | call other => simp [kind] at other
  | closeEmpty other => simp [kind] at other
  | comma _ other => simp [kind] at other
  | closeCall _ other => simp [kind] at other
  | closeGroup _ other => simp [kind] at other

theorem PrototypeReading.ne_operator_of_shift {r next : PrototypeReading} {t : Token}
    (move : r.step t = .shift next) : t.kind ≠ .operator := by
  unfold PrototypeReading.step at move
  split at move <;> simp_all

theorem ItemReading.operator_of_shift {r next : ItemReading} {t : Token}
    (move : r.step table t = .shift next) (kind : t.kind = .operator) :
    r.operand?.isSome = true ∧ ∃ power, table.powerOf? t.value.plain = some power := by
  cases r with
  | declaration r =>
    rcases Move.within_eq_shift move with ⟨_, inner, rfl⟩ | ⟨p, _, ended⟩
    · exact absurd kind (PrototypeReading.ne_operator_of_shift inner)
    · cases ended
  | definition r =>
    rcases Move.within_eq_shift move with ⟨_, inner, rfl⟩ | ⟨p, _, entered⟩
    · exact absurd kind (PrototypeReading.ne_operator_of_shift inner)
    · obtain ⟨_, rfl, inner⟩ := stepBody_shift_inv entered
      have complete := (Expression.operator_of_shift inner kind).1
      simp [Expression.start, Focus.operand?] at complete
  | body p r =>
    obtain ⟨_, rfl, inner⟩ := stepBody_shift_inv move
    exact Expression.operator_of_shift inner kind

namespace ProgramReading

theorem operator_of_shift {r next : ProgramReading} {t : Token} (wellFormed : t.WellFormed)
    (move : step table r t = .shift next) (kind : t.kind = .operator) :
    r.operand?.isSome = true ∧ ∃ power, table.powerOf? t.value.plain = some power := by
  obtain ⟨items, current⟩ := r
  cases current with
  | none => exact absurd kind (begin_shift_inv wellFormed move).1
  | some item =>
    rcases Move.within_eq_shift move with ⟨_, inner, rfl⟩ | ⟨node, _, begun⟩
    · exact ItemReading.operator_of_shift inner kind
    · exact absurd kind (begin_shift_inv wellFormed begun).1

theorem shifts_mono (within : table.Within wider) {r last : ProgramReading} {w : List Token}
    (wellFormed : ∀ t ∈ w, t.WellFormed) (shifts : (whole table).Shifts r w last) :
    (whole wider).Shifts r w last := by
  induction shifts with
  | nil => exact .nil _
  | @cons s next last t w live move tail ih =>
    obtain ⟨here, later⟩ := List.forall_mem_cons.mp wellFormed
    have same : step table s t = step wider s t := by
      apply step_congr
      intro kind
      obtain ⟨_, power, known⟩ := operator_of_shift here move kind
      rw [known, within _ _ known]
    exact .cons live (same.symm.trans move) (ih later)

theorem shifts_of_derives {w : List Token} (derivation : DerivesProgram table w)
    (wellFormed : ∀ t ∈ w, t.WellFormed) : ∃ last, (whole table).Shifts start w last := by
  obtain ⟨nodes, listing⟩ := lists_of_derivesProgram derivation wellFormed
  obtain ⟨last, shifts, _⟩ := shifts_of_lists listing start [] rfl
    (fun _ _ _ current => by simp [start] at current)
  exact ⟨last, shifts⟩

theorem operand_of_ends {r : ProgramReading} {w : List Token}
    (shifts : (whole table).Shifts start w r) (wellFormed : ∀ t ∈ w, t.WellFormed)
    (ends : EndsOperand table w) : r.operand?.isSome = true := by
  -- A plus sign may follow the operand under the wider table, so some program has one there, and
  -- the machine shifts an operator only where an operand stands complete.
  obtain ⟨v, u, rfl, awaits, operand⟩ := ends
  have within := within_withPlus table
  have formed : plusToken.WellFormed := by decide
  obtain ⟨power, known⟩ := plusToken_known table
  have next : AwaitsOperand table.withPlus (v ++ (u ++ [plusToken])) :=
    .operator (awaitsOperand_mono within awaits) (derives_mono within operand) rfl known
  obtain ⟨rest, completed, derivation⟩ := begins_of_awaits next
  have all : ∀ s ∈ v ++ (u ++ [plusToken]) ++ rest, s.WellFormed := by
    simp only [← List.append_assoc, List.forall_mem_append] at wellFormed ⊢
    exact ⟨⟨wellFormed, by simpa using formed⟩, completed⟩
  obtain ⟨last, longer⟩ := shifts_of_derives derivation all
  have regrouped : v ++ (u ++ [plusToken]) ++ rest = (v ++ u) ++ plusToken :: rest := by simp
  obtain ⟨middle, first, second⟩ := (regrouped ▸ longer).split
  obtain rfl := first.unique (shifts_mono within wellFormed shifts)
  cases second with
  | cons _ move _ => exact (operator_of_shift formed move rfl).1

end ProgramReading

/-! ## The first fault -/

theorem accepts_of_derives {tokens : List Token} (derivation : DerivesProgram table tokens)
    (wellFormed : ∀ t ∈ tokens, t.WellFormed) : Accepts table tokens := by
  obtain ⟨nodes, listing⟩ := lists_of_derivesProgram derivation wellFormed
  exact ⟨nodes, _, (program_eq_ok_iff wellFormed).mpr ⟨rfl, listing⟩⟩

theorem viable_of_shifts {w : List Token} {r : ProgramReading}
    (shifts : (ProgramReading.whole table).Shifts .start w r)
    (wellFormed : ∀ t ∈ w, t.WellFormed) : Viable table w := by
  have accounts := ProgramReading.accounts_of_shifts shifts wellFormed
  obtain ⟨rest, completed, derivation⟩ := ProgramReading.begins_of_accounts accounts wellFormed
  exact ⟨rest, completed, accepts_of_derives derivation
    (List.forall_mem_append.mpr ⟨wellFormed, completed⟩)⟩

theorem not_accepts_of_refuse {w more : List Token} {t : Token} {r : ProgramReading}
    {e : ProgramFault} (shifts : (ProgramReading.whole table).Shifts .start w r)
    (live : t.kind ≠ .ending) (move : ProgramReading.step table r t = .refuse e) :
    ¬ Accepts table (w ++ t :: more) := by
  rintro ⟨nodes, p, parse⟩
  have run : parseTokens table (w ++ t :: more) = (.error e, t :: more) :=
    Machine.run_of_fails (.refused shifts live move)
  simp [program_eq, run] at parse

/-- The parser is stopped by the first token that no program can hold in its place, or by the end
where the tokens only begin a program. It reports a stray operator by its symbol behind a complete
operand, and any other token as it is. -/
theorem program_reports_first_fault (table : OperatorTable) (tokens : List Token)
    (items : List Node) (fault : Fault) (p : Parser) (wellFormed : ∀ t ∈ tokens, t.WellFormed)
    (parse : (Parser.mk tokens 0 table).program = (.error ⟨items, fault⟩, p)) :
    (fault = .unexpectedEnd ↔ ∃ rest : List Token, rest ≠ [] ∧ (∀ t ∈ rest, t.WellFormed) ∧
      Accepts table (tokens ++ rest)) ∧
    (fault = .unexpectedEnd → p.position = tokens.length) ∧
    (fault ≠ .unexpectedEnd → ∃ (w more : List Token) (t : Token), tokens = w ++ t :: more ∧
      p.position = w.length ∧ Viable table w ∧ (∀ rest, ¬ Accepts table (w ++ t :: rest)) ∧
      ((t.IsStray table ∧ EndsOperand table w) ∧ fault = .unknownOperator t.value.plain ∨
        ¬ (t.IsStray table ∧ EndsOperand table w) ∧ fault = .unexpectedToken t)) := by
  rw [program_eq] at parse
  obtain ⟨outcome, rfl⟩ := Prod.mk.injEq .. ▸ parse
  have live : ∀ t ∈ tokens, t.kind ≠ .ending := fun t member => (wellFormed t member).live
  have run : (ProgramReading.whole table).run .start tokens =
      (.error ⟨items, fault⟩, (parseTokens table tokens).2) := Prod.ext outcome rfl
  rcases ProgramReading.fails_cases wellFormed (Machine.fails_of_run live run) with
    ⟨left, last, shifts, early⟩ | ⟨w, more, t, last, rfl, left, shifts, move⟩
  · have same : fault = .unexpectedEnd :=
      congrArg ProgramFault.fault (ProgramReading.atEnd_error early).1
    subst same
    obtain ⟨rest, completed, nodes, q, accepted⟩ := viable_of_shifts shifts wellFormed
    refine ⟨iff_of_true rfl ⟨rest, ?_, completed, nodes, q, accepted⟩, fun _ => by simp [left],
      fun other => absurd rfl other⟩
    rintro rfl
    rw [List.append_nil, program_eq, outcome] at accepted
    cases congrArg Prod.fst accepted
  · obtain ⟨front, here⟩ : (∀ s ∈ w, s.WellFormed) ∧ t.WellFormed :=
      ⟨fun s member => wellFormed s (by simp [member]), wellFormed t (by simp)⟩
    have dead (rest : List Token) : ¬ Accepts table (w ++ t :: rest) :=
      not_accepts_of_refuse shifts here.live move
    have reports : Reports table t (last.operand?.isSome = true) fault :=
      ProgramReading.step_refuse move
    have accounts := ProgramReading.accounts_of_shifts shifts front
    have ends : EndsOperand table w ↔ last.operand?.isSome = true :=
      ⟨ProgramReading.operand_of_ends shifts front,
        ProgramReading.ends_of_accounts accounts front⟩
    refine ⟨iff_of_false reports.ne_end ?_, fun same => absurd same reports.ne_end, fun _ => ?_⟩
    · rintro ⟨rest, _, _, accepted⟩
      rw [List.append_assoc, List.cons_append] at accepted
      exact dead (more ++ rest) accepted
    · refine ⟨w, more, t, rfl, by simp [left], viable_of_shifts shifts front, dead, ?_⟩
      simpa only [Reports, ends] using reports

/-- A stray operator behind an argument, where only its symbol is reported. -/
theorem program_reports_stray :
    let f : Token := ⟨.name, .text "f", .nowhere⟩
    let opening : Token := ⟨.opening, .text "(", .nowhere⟩
    let x : Token := ⟨.name, .text "x", .nowhere⟩
    let stray : Token := ⟨.operator, .text "@", .nowhere⟩
    let tokens := [f, opening, x, stray, x]
    let fault := Fault.unknownOperator "@"
    (∀ t ∈ tokens, t.WellFormed) ∧
      (Parser.mk tokens 0 .default).program = (.error ⟨[], fault⟩, ⟨tokens, 3, .default⟩) ∧
      ∃ (w more : List Token) (t : Token), tokens = w ++ t :: more ∧ 3 = w.length ∧
        Viable .default w ∧ (∀ rest, ¬ Accepts .default (w ++ t :: rest)) ∧
        ((t.IsStray .default ∧ EndsOperand .default w) ∧ fault = .unknownOperator t.value.plain ∨
          ¬ (t.IsStray .default ∧ EndsOperand .default w) ∧ fault = .unexpectedToken t) := by
  intro f opening x stray tokens fault
  have wellFormed : ∀ t ∈ tokens, t.WellFormed := by decide
  have parse : (Parser.mk tokens 0 .default).program = (.error ⟨[], fault⟩, ⟨tokens, 3, .default⟩) :=
    rfl
  obtain ⟨_, _, report⟩ := program_reports_first_fault .default tokens [] fault
    ⟨tokens, 3, .default⟩ wellFormed parse
  exact ⟨wellFormed, parse, report (by simp [fault])⟩

end Formulary
