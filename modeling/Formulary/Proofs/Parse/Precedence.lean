import Formulary.Parse.Parser
import Formulary.Proofs.Parse.Grammar
import Mathlib.Logic.ExistsUnique

/-!
Precedence and associativity. Whatever rendering of an expression the parser is given, it returns
that expression and stops behind it, as long as nothing follows that carries the rendering on.
Every chain of operands and operators is a rendering of exactly one tree: equal powers fold to the
left and tighter ones nest.
-/
namespace Formulary

/-- What stands behind a run of tokens does not carry it on: no operator, and behind a name no
opening parenthesis. -/
def Follows (w rest : List Token) : Prop :=
  ∀ t ∈ rest.head?, t.kind ≠ .operator ∧
    (t.kind = .opening → ∀ last ∈ w.getLast?, last.kind ≠ .name)

theorem follows_suffix {v w rest : List Token} (follows : Follows (v ++ w) rest) :
    Follows w rest := by
  intro t member
  obtain ⟨operator, opening⟩ := follows t member
  refine ⟨operator, ?_⟩
  intro kind last isLast
  exact opening kind last (by rw [List.getLast?_append, isLast]; rfl)

theorem follows_append {w rest : List Token} (v : List Token) (nonempty : w ≠ [])
    (follows : Follows w rest) : Follows (v ++ w) rest := by
  intro t member
  obtain ⟨operator, opening⟩ := follows t member
  refine ⟨operator, ?_⟩
  intro kind last isLast
  obtain ⟨own, same⟩ := Option.ne_none_iff_exists'.mp (mt List.getLast?_eq_none_iff.mp nonempty)
  rw [List.getLast?_append, same, Option.some_or] at isLast
  exact opening kind last (same.trans isLast)

theorem Reading.Holds.completes {r : Reading} {e : Node} {loosest : Option Nat}
    (holds : r.Holds [] e loosest) : r.Completes e := by
  obtain ⟨operand, complete, settled⟩ := holds
  exact ⟨operand, complete, settled 0 fun _ _ => Nat.zero_le _⟩

namespace Expression

variable {table : OperatorTable}

theorem takes_name_iff {bound : Bound} {r next : Reading} {t : Token}
    (takes : Takes table bound r t next) : (∃ name, next.focus = .name name) ↔ t.kind = .name := by
  cases takes <;> simp_all

/-- Where a name has just been taken, and only there, the last token was one. -/
theorem shifts_name_iff {outer : List Frame} {w : List Token} {r : Reading}
    (shifts : (whole table).Shifts ⟨outer, .operand⟩ w r) :
    (∃ name, r.focus = .name name) ↔ ∃ last ∈ w.getLast?, last.kind = .name := by
  have kept := shifts.preserves
    (fun s v => (∃ name, s.focus = .name name) ↔ ∃ last ∈ v.getLast?, last.kind = .name)
    (fun s v t next _ move => by simpa using takes_name_iff (takes_of_step move)) (v := [])
  simpa using kept (by simp)

theorem stops_of_follows {outer : List Frame} {w rest : List Token} {t : Token} {r : Reading}
    (shifts : (whole table).Shifts ⟨outer, .operand⟩ w r) (follows : Follows w (t :: rest)) :
    r.Stops t := by
  obtain ⟨operator, opening⟩ := follows t rfl
  refine ⟨operator, ?_⟩
  intro kind name named
  obtain ⟨last, member, lastKind⟩ := (shifts_name_iff shifts).mp ⟨name, named⟩
  exact opening kind last member lastKind

theorem follows_of_stops {outer : List Frame} {w : List Token} {t : Token} {r : Reading}
    (shifts : (whole table).Shifts ⟨outer, .operand⟩ w r) (stops : r.Stops t) : Follows w [t] := by
  intro s member
  obtain rfl := Option.some.inj member
  refine ⟨stops.1, ?_⟩
  intro kind last isLast name
  obtain ⟨text, named⟩ := (shifts_name_iff shifts).mpr ⟨last, isLast, name⟩
  exact stops.2 kind text named

theorem nonempty_of_completes {outer : List Frame} {w : List Token} {r : Reading} {e : Node}
    (shifts : (whole table).Shifts ⟨outer, .operand⟩ w r) (completes : r.Completes e) : w ≠ [] := by
  rintro rfl
  cases shifts
  obtain ⟨operand, complete, _⟩ := completes
  simp [Focus.operand?] at complete

theorem run_of_renders {e : Node} {loosest : Option Nat} {w rest : List Token}
    (rendering : Renders table (.expression e loosest) w) (follows : Follows w rest) :
    (whole table).run start (w ++ rest) = (.ok e, rest) := by
  obtain ⟨r, shifts, holds⟩ := reads_of_renders rendering [] fun _ _ => trivial
  refine Machine.run_eq_ok_iff.mpr ⟨w, r, rfl, shifts, ?_⟩
  have ends := atEnd_eq_ok_iff.mpr holds.completes
  cases rest with
  | nil => exact ends
  | cons t rest =>
    simp only [Machine.Yields]
    split
    · exact ends
    · exact step_eq_finish_iff.mpr ⟨holds.completes, stops_of_follows shifts follows⟩

theorem renders_unique {e e' : Node} {loosest loosest' : Option Nat} {w : List Token}
    (first : Renders table (.expression e loosest) w)
    (second : Renders table (.expression e' loosest') w) : e = e' := by
  have follows : Follows w [] := by simp [Follows]
  have same := (run_of_renders first follows).symm.trans (run_of_renders second follows)
  exact Except.ok.inj (congrArg Prod.fst same)

end Expression

/-- A rendering of an expression parses to it and no further, whatever does not carry it on; and
every chain of operands and operators renders exactly one expression. -/
theorem expression_of_rendering (table : OperatorTable) :
    (∀ (e : Node) (loosest : Option Nat) (w rest : List Token),
      Renders table (.expression e loosest) w → Follows w rest →
        (Parser.mk (w ++ rest) 0 table).expression = (.ok e, ⟨w ++ rest, w.length, table⟩)) ∧
    (∀ w : List Token, (∀ t ∈ w, t.WellFormed) → Derives table .expression w →
      ∃! e : Node, ∃ loosest : Option Nat, Renders table (.expression e loosest) w) := by
  constructor
  · intro e loosest w rest rendering follows
    have run := Expression.run_of_renders rendering follows
    simp only [Parser.expression, Parser.readExpression, Parser.read, Parser.remaining,
      List.drop_zero, run]
    simp
  · intro w wellFormed derivation
    obtain ⟨e, loosest, rendering⟩ := hasTree_of_derives derivation wellFormed
    refine ⟨e, ⟨loosest, rendering⟩, ?_⟩
    rintro other ⟨_, second⟩
    exact Expression.renders_unique second rendering

theorem expression_of_rendering_product :
    let minus : Token := ⟨.operator, .text "-", .nowhere⟩
    let times : Token := ⟨.operator, .text "*", .nowhere⟩
    let closing : Token := ⟨.closing, .text ")", .nowhere⟩
    let a : Token := ⟨.name, .text "a", .nowhere⟩
    let b : Token := ⟨.name, .text "b", .nowhere⟩
    let c : Token := ⟨.name, .text "c", .nowhere⟩
    let w := [a, minus, b, times, c]
    let e := Node.binary "-" (.reference "a") (.binary "*" (.reference "b") (.reference "c"))
    Renders .default (.expression e (some 20)) w ∧ Follows w [closing] ∧
      (Parser.mk (w ++ [closing]) 0 .default).expression = (.ok e, ⟨w ++ [closing], 5, .default⟩) ∧
      (∀ t ∈ w, t.WellFormed) ∧ Derives .default .expression w ∧
      ∃! e : Node, ∃ loosest : Option Nat, Renders .default (.expression e loosest) w := by
  intro minus times closing a b c w e
  have minusKnown : OperatorTable.default.powerOf? "-" = some 20 := by decide
  have timesKnown : OperatorTable.default.powerOf? "*" = some 40 := by decide
  have product : Renders .default
      (.expression (.binary "*" (.reference "b") (.reference "c")) (some 40)) ([b] ++ times :: [c]) :=
    .binary ⟨rfl, rfl⟩ timesKnown (.reference ⟨rfl, rfl⟩) (by simp) (.reference ⟨rfl, rfl⟩) (by simp)
  have rendering : Renders .default (.expression e (some 20))
      ([a] ++ minus :: ([b] ++ times :: [c])) :=
    .binary ⟨rfl, rfl⟩ minusKnown (.reference ⟨rfl, rfl⟩) (by simp) product (by simp)
  have factor : Derives .default .expression ([b] ++ times :: [c]) :=
    .operation (.name rfl) rfl timesKnown (.single (.name rfl))
  have derivation : Derives .default .expression ([a] ++ minus :: ([b] ++ times :: [c])) :=
    .operation (.name rfl) rfl minusKnown factor
  have follows : Follows w [closing] := by simp [Follows, closing]
  have wellFormed : ∀ t ∈ w, t.WellFormed := by decide
  have parse := (expression_of_rendering .default).1 e (some 20) w [closing] rendering follows
  have unique := (expression_of_rendering .default).2 w wellFormed derivation
  exact ⟨rendering, follows, parse, wellFormed, derivation, unique⟩

end Formulary
