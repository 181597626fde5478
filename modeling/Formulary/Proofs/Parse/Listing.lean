import Formulary.Parse.Program
import Formulary.Proofs.Parse.Precedence

/-!
Renderings of items and programs as tokens. A program is its items in order, with any number of
semicolons before, between and behind them; no item may be carried on by what follows it. The
machine shifts such a listing and then holds exactly its items.
-/
namespace Formulary

/-- Parameter names with commas between them. -/
inductive RendersParams : List String → List Token → Prop where
  | none : RendersParams [] []
  | one {name : String} {t : Token} (token : t.Carries .name (.text name)) :
      RendersParams [name] [t]
  | more {name next : String} {names : List String} {t comma : Token} {w : List Token}
      (token : t.Carries .name (.text name)) (kind : comma.kind = .comma)
      (rest : RendersParams (next :: names) w) :
      RendersParams (name :: next :: names) (t :: comma :: w)

inductive RendersPrototype : Prototype → List Token → Prop where
  | mk {name : String} {params : List String} {t opening closing : Token} {w : List Token}
      (token : t.Carries .name (.text name)) (opens : opening.kind = .opening)
      (inner : RendersParams params w) (closes : closing.kind = .closing) :
      RendersPrototype ⟨name, params⟩ (t :: opening :: (w ++ [closing]))

inductive RendersItem (table : OperatorTable) : Node → List Token → Prop where
  | declaration {p : Prototype} {t : Token} {w : List Token} (kind : t.kind = .declaration)
      (signature : RendersPrototype p w) :
      RendersItem table (.declaration (.prototype p)) (t :: w)
  | definition {p : Prototype} {e : Node} {loosest : Option Nat} {t : Token} {v w : List Token}
      (kind : t.kind = .definition) (named : p.name ≠ "") (signature : RendersPrototype p v)
      (body : Renders table (.expression e loosest) w) :
      RendersItem table (.definition (.prototype p) e) (t :: (v ++ w))
  | bare {e : Node} {loosest : Option Nat} {w : List Token}
      (body : Renders table (.expression e loosest) w) : RendersItem table (.bare e) w

/-- The items of a program, in order and without gaps. -/
inductive Lists (table : OperatorTable) : List Node → List Token → Prop where
  | nil : Lists table [] []
  | separator {nodes : List Node} {t : Token} {w : List Token} (kind : t.kind = .separator)
      (rest : Lists table nodes w) : Lists table nodes (t :: w)
  | item {node : Node} {nodes : List Node} {v w : List Token} (first : RendersItem table node v)
      (apart : Follows v w) (rest : Lists table nodes w) : Lists table (node :: nodes) (v ++ w)

namespace PrototypeReading

theorem shifts_one {r next : PrototypeReading} {t : Token} (live : t.kind ≠ .ending)
    (move : r.step t = .shift next) : machine.Shifts r [t] next :=
  .cons live move (.nil next)

/-- The next token must be a parameter, the ones before which are given. -/
def Awaits (r : PrototypeReading) (name : String) (done : List String) : Prop :=
  r = .firstParam name ∧ done = [] ∨ r = .param name done

theorem shifts_param {r : PrototypeReading} {name param : String} {done : List String} {t : Token}
    (awaits : r.Awaits name done) (token : t.Carries .name (.text param)) :
    machine.Shifts r [t] (.afterParam name (done ++ [param])) := by
  have plain := token.plain
  obtain ⟨kind, _⟩ := token
  refine shifts_one (by simp [kind]) ?_
  rcases awaits with ⟨rfl, rfl⟩ | rfl
  · simp only [step, kind, plain, List.nil_append]
  · simp only [step, kind, plain]

theorem shifts_params {params : List String} {w : List Token} (rendering : RendersParams params w) :
    ∀ (r : PrototypeReading) (name : String) (done : List String) (closing : Token),
      r.Awaits name done → params ≠ [] → closing.kind = .closing →
        machine.Shifts r (w ++ [closing]) (.complete ⟨name, done ++ params⟩) := by
  induction rendering with
  | none =>
    intro r name done closing _ nonempty
    exact absurd rfl nonempty
  | @one param t token =>
    intro r name done closing awaits _ closes
    have close : step (.afterParam name (done ++ [param])) closing =
        .shift (.complete ⟨name, done ++ [param]⟩) := by simp only [step, closes]
    exact (shifts_param awaits token).append (shifts_one (by simp [closes]) close)
  | @more param next names t comma w token kind _ ih =>
    intro r name done closing awaits _ closes
    have between : step (.afterParam name (done ++ [param])) comma =
        .shift (.param name (done ++ [param])) := by simp only [step, kind]
    have others := ih (.param name (done ++ [param])) name (done ++ [param]) closing (.inr rfl)
      (by simp) closes
    have all := (shifts_param awaits token).append
      ((shifts_one (by simp [kind]) between).append others)
    simpa using all

theorem shifts_of_renders {p : Prototype} {w : List Token} (rendering : RendersPrototype p w) :
    machine.Shifts .start w (.complete p) := by
  cases rendering with
  | @mk name params t opening closing w token opens inner closes =>
    have plain := token.plain
    obtain ⟨kind, _⟩ := token
    have named : step .start t = .shift (.opening name) := by simp only [step, kind, plain]
    have opened : step (.opening name) opening = .shift (.firstParam name) := by
      simp only [step, opens]
    refine .cons (by simp [kind]) named (.cons (by simp [opens]) opened ?_)
    cases inner with
    | none =>
      have close : step (.firstParam name) closing = .shift (.complete ⟨name, []⟩) := by
        simp only [step, closes]
      exact shifts_one (by simp [closes]) close
    | one token =>
      exact shifts_params (.one token) _ name [] closing (.inl ⟨rfl, rfl⟩) (by simp) closes
    | more token comma rest =>
      exact shifts_params (.more token comma rest) _ name [] closing (.inl ⟨rfl, rfl⟩) (by simp)
        closes

end PrototypeReading

variable {table : OperatorTable}

namespace ItemReading

def Stops (r : ItemReading) (t : Token) : Prop := ∀ p e, r = .body p e → e.Stops t

theorem stepBody_shift {p : Prototype} {r next : Reading} {t : Token}
    (move : Expression.step table bound r t = .shift next) :
    stepBody table p r t = .shift (.body p next) := by
  simp only [stepBody, move, Move.within]

theorem atEnd_body {p : Prototype} {r : Reading} {e : Node} (completes : r.Completes e) :
    atEnd (.body p r) = .ok (.definition (.prototype p) e) := by
  simp only [atEnd, Expression.atEnd_eq_ok_iff.mpr completes, Except.map]

theorem step_resting {r : ItemReading} {node : Node} {t : Token} (rests : r.atEnd = .ok node)
    (stops : r.Stops t) : r.step table t = .finish node := by
  cases r with
  | declaration r =>
    cases r with
    | complete p =>
      obtain rfl := Except.ok.inj rests
      rfl
    | _ => simp [atEnd, PrototypeReading.atEnd, Except.map] at rests
  | definition r => simp [atEnd] at rests
  | body p r =>
    cases found : Expression.atEnd r with
    | error fault => simp [atEnd, found, Except.map] at rests
    | ok e =>
      simp only [atEnd, found, Except.map, Except.ok.injEq] at rests
      subst rests
      have completes := Expression.atEnd_eq_ok_iff.mp found
      have finished : Expression.step table (.atLeast 0) r t = .finish e :=
        Expression.step_eq_finish_iff.mpr ⟨completes, stops p r rfl⟩
      simp only [step, stepBody, bound, finished, Move.within]

end ItemReading

namespace ProgramReading

abbrev whole (table : OperatorTable) : Machine ProgramReading ProgramFault (List Node) :=
  machine table

/-- Nothing can carry the current item on at this token. -/
def Stops (r : ProgramReading) (t : Token) : Prop := ∀ item, r.current = some item → item.Stops t

theorem step_item {items : List Node} {r next : ItemReading} {t : Token}
    (move : r.step table t = .shift next) :
    (whole table).step ⟨items, some r⟩ t = .shift ⟨items, some next⟩ := by
  simp only [whole, machine, step, stepItem, move, Move.within]

/-- A program that may end goes on with the next token as if it began there. -/
theorem step_resting {r : ProgramReading} {nodes : List Node} {t : Token}
    (rests : r.atEnd = .ok nodes) (stops : r.Stops t) :
    step table r t = begin table nodes.reverse t := by
  obtain ⟨items, current⟩ := r
  cases current with
  | none =>
    obtain rfl := Except.ok.inj rests
    simp [step]
  | some item =>
    cases found : item.atEnd with
    | error fault => simp [atEnd, found] at rests
    | ok node =>
      simp only [atEnd, found, Except.ok.injEq] at rests
      subst rests
      simp [step, stepItem, ItemReading.step_resting found (stops item rfl), Move.within]

theorem shifts_body {items : List Node} {p : Prototype} {r last : Reading} {w : List Token}
    (shifts : (Expression.whole table).Shifts r w last) :
    (whole table).Shifts ⟨items, some (.body p r)⟩ w ⟨items, some (.body p last)⟩ := by
  refine shifts.lift (n := whole table)
    (fun r => (⟨items, some (.body p r)⟩ : ProgramReading)) ?_
  intro s t next move
  exact step_item (r := .body p s) (ItemReading.stepBody_shift move)

theorem shifts_prototype {items : List Node} {p : Prototype} {w : List Token}
    (state : PrototypeReading → ItemReading)
    (step : ∀ (s : PrototypeReading) (t : Token) (next : PrototypeReading),
      s.step t = .shift next → (state s).step table t = .shift (state next))
    (rendering : RendersPrototype p w) :
    (whole table).Shifts ⟨items, some (state .start)⟩ w ⟨items, some (state (.complete p))⟩ := by
  refine (PrototypeReading.shifts_of_renders rendering).lift (n := whole table)
    (fun r => (⟨items, some (state r)⟩ : ProgramReading)) ?_
  intro s t next move
  exact step_item (step s t next move)

theorem shifts_step {r next : ProgramReading} {t : Token} (live : t.kind ≠ .ending)
    (move : step table r t = .shift next) : (whole table).Shifts r [t] next :=
  .cons live move (.nil next)

/-- The tokens of a body, from a state that hands its first token to the body. -/
theorem shifts_into_body (items : List Node) (p : Prototype) (r : ProgramReading) {e : Node}
    {loosest : Option Nat} {w : List Token}
    (enter : ∀ (t : Token) (next : Reading), t ∈ w.head? →
      Expression.step table (.atLeast 0) Expression.start t = .shift next →
        step table r t = .shift ⟨items, some (.body p next)⟩)
    (rendering : Renders table (.expression e loosest) w) :
    ∃ last : Reading, (whole table).Shifts r w ⟨items, some (.body p last)⟩ ∧ last.Completes e ∧
      ∀ t rest, Follows w (t :: rest) → last.Stops t := by
  obtain ⟨last, shifts, holds⟩ := Expression.reads_of_renders rendering [] fun _ _ => trivial
  have stops (t : Token) (rest : List Token) (follows : Follows w (t :: rest)) : last.Stops t :=
    Expression.stops_of_follows shifts follows
  refine ⟨last, ?_, holds.completes, stops⟩
  cases shifts with
  | nil => simp [Reading.Holds, Focus.operand?] at holds
  | cons live move tail => exact .cons live (enter _ _ rfl move) (shifts_body tail)

theorem begin_expression {items : List Node} {t : Token} {next : Reading}
    (move : Expression.step table (.atLeast 0) Expression.start t = .shift next) :
    begin table items t = .shift ⟨items, some (.body .anonymous next)⟩ := by
  have kinds := Expression.takes_operand_kind (Expression.takes_of_step move)
  have entered : ItemReading.bare.step table t = .shift (.body .anonymous next) :=
    ItemReading.stepBody_shift move
  have inside : ∀ after, stepItem table items .bare t after =
      .shift ⟨items, some (.body .anonymous next)⟩ := by
    intro after
    simp only [stepItem, entered, Move.within]
  rcases kinds with kind | kind | kind <;> simp only [begin, kind, inside]

theorem stops_body {items : List Node} {p : Prototype} {r : Reading} {t : Token}
    (stops : r.Stops t) : Stops ⟨items, some (.body p r)⟩ t := by
  intro item current p' e same
  subst same
  obtain ⟨rfl, rfl⟩ := ItemReading.body.inj (Option.some.inj current)
  exact stops

/-- An item is shifted from wherever it may begin, up to where the program may end behind it. -/
theorem shifts_of_item {node : Node} {v : List Token} {r : ProgramReading} {done : List Node}
    (rendering : RendersItem table node v) (rests : r.atEnd = .ok done)
    (stops : ∀ t ∈ v.head?, r.Stops t) :
    ∃ last : ProgramReading, (whole table).Shifts r v last ∧ last.atEnd = .ok (done ++ [node]) ∧
      ∀ t rest, Follows v (t :: rest) → last.Stops t := by
  cases rendering with
  | @declaration p t w kind signature =>
    have first : step table r t = .shift ⟨done.reverse, some (.declaration .start)⟩ := by
      rw [step_resting rests (stops t rfl)]
      simp only [begin, kind]
    have shifts := (shifts_step (by simp [kind]) first).append
      (shifts_prototype .declaration (fun s t next move => by
        simp only [ItemReading.step, move, Move.within]) signature)
    refine ⟨_, shifts, by simp [atEnd, ItemReading.atEnd, PrototypeReading.atEnd, Except.map], ?_⟩
    intro t rest _ item current p e same
    subst same
    simp at current
  | @definition p e loosest t v w kind _ signature body =>
    have first : step table r t = .shift ⟨done.reverse, some (.definition .start)⟩ := by
      rw [step_resting rests (stops t rfl)]
      simp only [begin, kind]
    have shifts := (shifts_step (by simp [kind]) first).append
      (shifts_prototype .definition (fun s t next move => by
        simp only [ItemReading.step, move, Move.within]) signature)
    obtain ⟨last, inner, completes, stopped⟩ := shifts_into_body done.reverse p
      ⟨done.reverse, some (.definition (.complete p))⟩ (by
        intro t next _ move
        have entered : (ItemReading.definition (.complete p)).step table t =
            .shift (.body p next) := ItemReading.stepBody_shift move
        exact step_item entered) body
    refine ⟨_, shifts.append inner, by simp [atEnd, ItemReading.atEnd_body completes], ?_⟩
    intro t' rest follows
    exact stops_body (stopped t' rest (follows_suffix (v := t :: v) follows))
  | @bare e loosest _ body =>
    obtain ⟨last, shifts, completes, stopped⟩ := shifts_into_body done.reverse .anonymous r (by
        intro t next member move
        rw [step_resting rests (stops t member)]
        exact begin_expression move) body
    refine ⟨_, shifts, by simp [atEnd, ItemReading.atEnd_body completes, Node.bare], ?_⟩
    intro t rest follows
    exact stops_body (stopped t rest follows)

/-- A listing is shifted from wherever a program may go on, item by item. -/
theorem shifts_of_lists {nodes : List Node} {w : List Token} (listing : Lists table nodes w) :
    ∀ (r : ProgramReading) (done : List Node), r.atEnd = .ok done → (∀ t ∈ w.head?, r.Stops t) →
      ∃ last : ProgramReading, (whole table).Shifts r w last ∧
        last.atEnd = .ok (done ++ nodes) := by
  induction listing with
  | nil =>
    intro r done rests _
    exact ⟨r, .nil r, by simpa using rests⟩
  | @separator nodes t w kind _ ih =>
    intro r done rests stops
    have first : step table r t = .shift ⟨done.reverse, none⟩ := by
      rw [step_resting rests (stops t rfl)]
      simp only [begin, kind]
    obtain ⟨last, shifts, result⟩ := ih ⟨done.reverse, none⟩ done (by simp [atEnd])
      (fun _ _ _ current => by simp at current)
    exact ⟨last, .cons (by simp [kind]) first shifts, result⟩
  | @item node nodes v w first apart _ ih =>
    intro r done rests stops
    have inFront : ∀ t ∈ v.head?, r.Stops t := by
      intro t member
      exact stops t (by rw [List.head?_append, member]; rfl)
    obtain ⟨middle, shifts, result, stopped⟩ := shifts_of_item first rests inFront
    have next : ∀ t ∈ w.head?, middle.Stops t := by
      intro t member
      obtain ⟨rest, rfl⟩ := List.head?_eq_some_iff.mp member
      exact stopped t rest apart
    obtain ⟨last, others, whole⟩ := ih middle (done ++ [node]) result next
    exact ⟨last, shifts.append others, by simpa using whole⟩

end ProgramReading

theorem parse_of_lists {nodes : List Node} {tokens : List Token}
    (listing : Lists table nodes tokens) : parseTokens table tokens = (.ok nodes, []) := by
  obtain ⟨last, shifts, result⟩ := ProgramReading.shifts_of_lists listing .start [] rfl
    (fun _ _ _ current => by simp [ProgramReading.start] at current)
  have ends : last.atEnd = .ok nodes := by simpa using result
  exact Machine.run_eq_ok_iff.mpr ⟨tokens, last, by simp, shifts, ends⟩

end Formulary
