import Formulary.Proofs.Parse.Consumed
import Formulary.Proofs.Parse.Listing

/-!
What an accepted list of tokens holds. A token list parses to some items exactly if it lists those
items, so no token is lost and none is invented: names, numbers and operators come back in order.
-/
namespace Formulary

namespace Move

variable {σ τ ε η α β : Type} {state : σ → τ} {fault : ε → η} {finished : α → Move τ η β}
  {inner : Move σ ε α}

theorem within_eq_shift {next : τ} (move : inner.within state fault finished = .shift next) :
    (∃ s, inner = .shift s ∧ next = state s) ∨ ∃ a, inner = .finish a ∧ finished a = .shift next := by
  cases inner with
  | shift s => exact .inl ⟨s, rfl, (Move.shift.inj move).symm⟩
  | finish a => exact .inr ⟨a, rfl, move⟩
  | refuse e => cases move
  | spoil e => cases move

theorem within_eq_finish {b : β} (move : inner.within state fault finished = .finish b) :
    ∃ a, inner = .finish a ∧ finished a = .finish b := by
  cases inner with
  | shift s => cases move
  | finish a => exact ⟨a, rfl, move⟩
  | refuse e => cases move
  | spoil e => cases move

end Move

theorem renders_params_snoc {params : List String} {param : String} {t comma : Token}
    {v : List Token} (rendering : RendersParams params v) (nonempty : params ≠ [])
    (kind : comma.kind = .comma) (token : t.Carries .name (.text param)) :
    RendersParams (params ++ [param]) (v ++ [comma, t]) := by
  induction rendering with
  | none => exact absurd rfl nonempty
  | one first => exact .more first kind (.one token)
  | more first between _ ih => exact .more first between (ih (by simp))

namespace PrototypeReading

/-- The tokens of a prototype up to the place of reading. -/
def Accounts : PrototypeReading → List Token → Prop
  | .start, w => w = []
  | .opening name, w => ∃ t : Token, w = [t] ∧ t.Carries .name (.text name)
  | .firstParam name, w =>
    ∃ t opening : Token, w = [t, opening] ∧ t.Carries .name (.text name) ∧ opening.kind = .opening
  | .param name params, w =>
    ∃ (t opening comma : Token) (v : List Token), w = t :: opening :: (v ++ [comma]) ∧
      t.Carries .name (.text name) ∧ opening.kind = .opening ∧ RendersParams params v ∧
      params ≠ [] ∧ comma.kind = .comma
  | .afterParam name params, w =>
    ∃ (t opening : Token) (v : List Token), w = t :: opening :: v ∧
      t.Carries .name (.text name) ∧ opening.kind = .opening ∧ RendersParams params v ∧ params ≠ []
  | .complete p, w => RendersPrototype p w

theorem accounts_step {r next : PrototypeReading} {w : List Token} {t : Token}
    (accounts : r.Accounts w) (wellFormed : t.WellFormed) (move : r.step t = .shift next) :
    next.Accounts (w ++ [t]) := by
  unfold step at move
  split at move
  · next kind =>
    obtain rfl := Move.shift.inj move
    subst accounts
    exact ⟨t, rfl, wellFormed.carries_text kind (by simp)⟩
  · next name kind =>
    obtain rfl := Move.shift.inj move
    obtain ⟨s, rfl, token⟩ := accounts
    exact ⟨s, t, rfl, token, kind⟩
  · next name kind =>
    obtain rfl := Move.shift.inj move
    obtain ⟨s, opening, rfl, token, opens⟩ := accounts
    exact .mk token opens .none kind
  · next name kind =>
    obtain rfl := Move.shift.inj move
    obtain ⟨s, opening, rfl, token, opens⟩ := accounts
    have param := wellFormed.carries_text kind (by simp)
    exact ⟨s, opening, [t], rfl, token, opens, .one param, by simp⟩
  · next name params kind =>
    obtain rfl := Move.shift.inj move
    obtain ⟨s, opening, comma, v, rfl, token, opens, inner, nonempty, between⟩ := accounts
    have param := wellFormed.carries_text kind (by simp)
    have longer := renders_params_snoc inner nonempty between param
    exact ⟨s, opening, _, by simp, token, opens, longer, by simp⟩
  · next name params kind =>
    obtain rfl := Move.shift.inj move
    obtain ⟨s, opening, v, rfl, token, opens, inner, nonempty⟩ := accounts
    exact ⟨s, opening, t, v, rfl, token, opens, inner, nonempty, kind⟩
  · next name params kind =>
    obtain rfl := Move.shift.inj move
    obtain ⟨s, opening, v, rfl, token, opens, inner, _⟩ := accounts
    exact .mk token opens inner kind
  · simp at move
  · simp at move

theorem complete_of_finish {r : PrototypeReading} {t : Token} {p : Prototype}
    (move : r.step t = .finish p) : r = .complete p := by
  unfold step at move
  split at move <;> cases move
  rfl

end PrototypeReading

/-- What stands in front of a body: nothing, or the beginning of a definition. -/
def RendersHead (p : Prototype) (w : List Token) : Prop :=
  p = .anonymous ∧ w = [] ∨
    p.name ≠ "" ∧ ∃ (t : Token) (v : List Token), w = t :: v ∧ t.kind = .definition ∧
      RendersPrototype p v

theorem item_of_head {table : OperatorTable} {p : Prototype} {e : Node} {loosest : Option Nat}
    {v w : List Token} (head : RendersHead p v) (body : Renders table (.expression e loosest) w) :
    RendersItem table (.definition (.prototype p) e) (v ++ w) := by
  rcases head with ⟨rfl, rfl⟩ | ⟨named, t, u, rfl, kind, signature⟩
  · exact .bare body
  · exact .definition kind named signature body

theorem follows_prototype {p : Prototype} {w rest : List Token} (rendering : RendersPrototype p w)
    (operator : ∀ t ∈ rest.head?, t.kind ≠ .operator) : Follows w rest := by
  cases rendering with
  | @mk name params t opening closing v _ _ _ closes =>
    have last : Follows [closing] rest := by
      intro s member
      refine ⟨operator s member, ?_⟩
      simp [closes]
    exact follows_append (t :: opening :: v) (by simp) last

theorem prototype_nonempty {p : Prototype} {w : List Token} (rendering : RendersPrototype p w) :
    w ≠ [] := by
  cases rendering
  simp

theorem named_of_renders {p : Prototype} {w : List Token} (rendering : RendersPrototype p w)
    (wellFormed : ∀ t ∈ w, t.WellFormed) : p.name ≠ "" := by
  cases rendering with
  | @mk _ _ t _ _ _ token => exact (wellFormed t (by simp)).text_ne_empty token (by simp)

variable {table : OperatorTable}

namespace ItemReading

/-- The tokens of an item up to the place of reading. -/
def Accounts (table : OperatorTable) : ItemReading → List Token → Prop
  | .declaration r, w =>
    ∃ (t : Token) (v : List Token), w = t :: v ∧ t.kind = .declaration ∧ r.Accounts v
  | .definition r, w =>
    ∃ (t : Token) (v : List Token), w = t :: v ∧ t.kind = .definition ∧ r.Accounts v
  | .body p r, w =>
    ∃ v u : List Token, w = v ++ u ∧ RendersHead p v ∧
      (Expression.whole table).Shifts Expression.start u r

theorem stepBody_shift_inv {p : Prototype} {r : Reading} {t : Token} {next : ItemReading}
    (move : stepBody table p r t = .shift next) :
    ∃ next' : Reading, next = .body p next' ∧
      Expression.step table (.atLeast 0) r t = .shift next' := by
  rcases Move.within_eq_shift move with ⟨next', inner, rfl⟩ | ⟨e, _, ended⟩
  · exact ⟨next', rfl, inner⟩
  · cases ended

theorem accounts_body {p : Prototype} {r : Reading} {t : Token} {next : ItemReading}
    {v u : List Token} (live : t.kind ≠ .ending) (head : RendersHead p v)
    (shifts : (Expression.whole table).Shifts Expression.start u r)
    (move : stepBody table p r t = .shift next) : next.Accounts table (v ++ u ++ [t]) := by
  obtain ⟨next', rfl, inner⟩ := stepBody_shift_inv move
  exact ⟨v, u ++ [t], by simp, head, shifts.snoc live inner⟩

theorem accounts_step {r next : ItemReading} {w : List Token} {t : Token}
    (accounts : r.Accounts table w) (wellFormed : ∀ s ∈ w ++ [t], s.WellFormed)
    (move : r.step table t = .shift next) : next.Accounts table (w ++ [t]) := by
  have here : t.WellFormed := wellFormed t (by simp)
  cases r with
  | declaration r =>
    obtain ⟨s, v, rfl, kind, inner⟩ := accounts
    rcases Move.within_eq_shift move with ⟨next', shift, rfl⟩ | ⟨p, _, ended⟩
    · exact ⟨s, v ++ [t], rfl, kind, PrototypeReading.accounts_step inner here shift⟩
    · cases ended
  | definition r =>
    obtain ⟨s, v, rfl, kind, inner⟩ := accounts
    rcases Move.within_eq_shift move with ⟨next', shift, rfl⟩ | ⟨p, finish, entered⟩
    · exact ⟨s, v ++ [t], rfl, kind, PrototypeReading.accounts_step inner here shift⟩
    · obtain rfl := PrototypeReading.complete_of_finish finish
      have named := named_of_renders inner fun s member => wellFormed s (by simp [member])
      have head : RendersHead p (s :: v) := .inr ⟨named, s, v, rfl, kind, inner⟩
      simpa using accounts_body here.live head (.nil _) entered
  | body p r =>
    obtain ⟨v, u, rfl, head, shifts⟩ := accounts
    exact accounts_body here.live head shifts move

/-- What may be done with an item where it may end: its tokens render it, and they are not carried
on by a token that stops it. -/
theorem renders_of_atEnd {r : ItemReading} {w : List Token} {node : Node}
    (accounts : r.Accounts table w) (wellFormed : ∀ t ∈ w, t.WellFormed)
    (rests : r.atEnd = .ok node) :
    RendersItem table node w ∧ ∀ t, r.Stops t → t.kind ≠ .operator → Follows w [t] := by
  cases r with
  | declaration r =>
    obtain ⟨t, v, rfl, kind, inner⟩ := accounts
    cases r with
    | complete p =>
      obtain rfl := Except.ok.inj rests
      refine ⟨.declaration kind inner, ?_⟩
      intro t' _ operator
      have apart : Follows v [t'] := follows_prototype inner (by simpa using operator)
      exact follows_append [t] (prototype_nonempty inner) apart
    | _ => simp [atEnd, PrototypeReading.atEnd, Except.map] at rests
  | definition r => simp [atEnd] at rests
  | body p r =>
    obtain ⟨v, u, rfl, head, shifts⟩ := accounts
    cases found : Expression.atEnd r with
    | error fault => simp [atEnd, found, Except.map] at rests
    | ok e =>
      simp only [atEnd, found, Except.map, Except.ok.injEq] at rests
      subst rests
      have completes := Expression.atEnd_eq_ok_iff.mp found
      have inner := Expression.accounts_of_shifts (v := []) shifts .nil
        fun t member => wellFormed t (List.mem_append_right v member)
      obtain ⟨loosest, body⟩ := Expression.renders_of_completes inner completes
      refine ⟨item_of_head head body, ?_⟩
      intro t stops _
      exact follows_append v (Expression.nonempty_of_completes shifts completes)
        (Expression.follows_of_stops shifts (stops p r rfl))

theorem stepBody_finish_inv {p : Prototype} {r : Reading} {t : Token} {node : Node}
    (move : stepBody table p r t = .finish node) :
    ∃ e : Node, node = .definition (.prototype p) e ∧ r.Completes e ∧ r.Stops t := by
  obtain ⟨e, inner, ended⟩ := Move.within_eq_finish move
  obtain rfl := Move.finish.inj ended
  exact ⟨e, rfl, Expression.step_eq_finish_iff.mp inner⟩

theorem atEnd_of_finish {r : ItemReading} {t : Token} {node : Node}
    (move : r.step table t = .finish node) : r.atEnd = .ok node ∧ r.Stops t := by
  cases r with
  | declaration r =>
    obtain ⟨p, finish, ended⟩ := Move.within_eq_finish move
    obtain rfl := PrototypeReading.complete_of_finish finish
    obtain rfl := Move.finish.inj ended
    refine ⟨rfl, ?_⟩
    intro p' r' same
    cases same
  | definition r =>
    obtain ⟨p, _, ended⟩ := Move.within_eq_finish move
    obtain ⟨e, _, ⟨operand, complete, _⟩, _⟩ := stepBody_finish_inv ended
    simp [Expression.start, Focus.operand?] at complete
  | body p r =>
    obtain ⟨e, rfl, completes, stops⟩ := stepBody_finish_inv move
    refine ⟨atEnd_body completes, ?_⟩
    intro p' r' same
    obtain ⟨_, rfl⟩ := ItemReading.body.inj same
    exact stops

end ItemReading

theorem follows_across {v w rest : List Token} (nonempty : w ≠ []) (follows : Follows v w) :
    Follows v (w ++ rest) := by
  obtain ⟨t, w, rfl⟩ := List.exists_cons_of_ne_nil nonempty
  exact follows

theorem item_nonempty {node : Node} {v : List Token} (item : RendersItem table node v) :
    v ≠ [] := by
  cases item with
  | declaration => simp
  | definition => simp
  | bare body =>
    obtain ⟨r, shifts, holds⟩ := Expression.reads_of_renders body [] fun _ _ => trivial
    exact Expression.nonempty_of_completes shifts holds.completes

theorem lists_append {nodes others : List Node} {v w : List Token} (first : Lists table nodes v)
    (second : Lists table others w) (follows : Follows v w) :
    Lists table (nodes ++ others) (v ++ w) := by
  induction first with
  | nil => exact second
  | @separator nodes t v kind _ ih => exact .separator kind (ih (follows_suffix (v := [t]) follows))
  | @item node nodes u v item apart rest ih =>
    have after := ih (follows_suffix follows)
    have between : Follows u (v ++ w) := by
      by_cases empty : v = []
      · subst empty
        simpa using follows
      · exact follows_across empty apart
    simpa using Lists.item item between after

theorem lists_singleton {node : Node} {v : List Token} (item : RendersItem table node v) :
    Lists table [node] v := by
  simpa using Lists.item item (by simp [Follows]) .nil

namespace ProgramReading

/-- The tokens of a program up to the place of reading: those of the finished items and semicolons,
and those of the item that is being read. -/
def Accounts (table : OperatorTable) (r : ProgramReading) (w : List Token) : Prop :=
  ∃ v u : List Token, w = v ++ u ∧ Lists table r.items.reverse v ∧
    match r.current with
    | none => u = [] ∧ ∀ last ∈ v.getLast?, last.kind ≠ .name
    | some item => item.Accounts table u ∧ u ≠ [] ∧ Follows v u

theorem begin_shift_inv {items : List Node} {t : Token} {next : ProgramReading}
    (wellFormed : t.WellFormed) (move : begin table items t = .shift next) :
    t.kind ≠ .operator ∧ next.items = items ∧
      match next.current with
      | none => t.kind = .separator
      | some item => item.Accounts table [t] := by
  unfold begin at move
  split at move
  · next kind =>
    obtain rfl := Move.shift.inj move
    exact ⟨by simp [kind], rfl, t, [], rfl, kind, rfl⟩
  · next kind =>
    obtain rfl := Move.shift.inj move
    exact ⟨by simp [kind], rfl, t, [], rfl, kind, rfl⟩
  · next kind =>
    obtain rfl := Move.shift.inj move
    exact ⟨by simp [kind], rfl, kind⟩
  · rcases Move.within_eq_shift move with ⟨next', shift, rfl⟩ | ⟨node, _, ended⟩
    · obtain ⟨r, rfl, inner⟩ := ItemReading.stepBody_shift_inv shift
      have account := ItemReading.accounts_body wellFormed.live (.inl ⟨rfl, rfl⟩) (.nil _) shift
      have kinds := Expression.takes_operand_kind (Expression.takes_of_step inner)
      refine ⟨?_, rfl, by simpa using account⟩
      rcases kinds with kind | kind | kind <;> simp [kind]
    · cases ended

theorem accounts_begin {items : List Node} {v : List Token} {t : Token} {next : ProgramReading}
    (listing : Lists table items.reverse v) (wellFormed : t.WellFormed)
    (apart : t.kind ≠ .operator → Follows v [t]) (move : begin table items t = .shift next) :
    next.Accounts table (v ++ [t]) := by
  obtain ⟨operator, same, account⟩ := begin_shift_inv wellFormed move
  obtain ⟨items', current⟩ := next
  obtain rfl : items' = items := same
  cases current with
  | none =>
    have kind : t.kind = .separator := account
    have longer := lists_append listing (.separator kind .nil) (apart operator)
    exact ⟨v ++ [t], [], by simp, by simpa using longer, rfl, by simp [kind]⟩
  | some item => exact ⟨v, [t], rfl, listing, account, by simp, apart operator⟩

theorem accounts_step {r next : ProgramReading} {w : List Token} {t : Token}
    (accounts : r.Accounts table w) (wellFormed : ∀ s ∈ w ++ [t], s.WellFormed)
    (move : step table r t = .shift next) : next.Accounts table (w ++ [t]) := by
  obtain ⟨items, current⟩ := r
  obtain ⟨v, u, rfl, listing, account⟩ := accounts
  have here : t.WellFormed := wellFormed t (by simp)
  cases current with
  | none =>
    obtain ⟨rfl, last⟩ := account
    rw [List.append_nil]
    refine accounts_begin listing here ?_ move
    intro operator s member
    obtain rfl := Option.some.inj member
    exact ⟨operator, fun _ => last⟩
  | some item =>
    obtain ⟨inner, nonempty, follows⟩ := account
    rcases Move.within_eq_shift move with ⟨next', shift, rfl⟩ | ⟨node, finish, begun⟩
    · have kept := ItemReading.accounts_step inner (fun s member => wellFormed s (by
        rw [List.append_assoc]
        exact List.mem_append_right v member)) shift
      exact ⟨v, u ++ [t], by simp, listing, kept, by simp, follows_across nonempty follows⟩
    · obtain ⟨rests, stops⟩ := ItemReading.atEnd_of_finish finish
      obtain ⟨item, apart⟩ := ItemReading.renders_of_atEnd inner
        (fun s member => wellFormed s (by simp [member])) rests
      have longer := lists_append listing (lists_singleton item) follows
      refine accounts_begin (by simpa using longer) here ?_ begun
      intro operator
      exact follows_append v nonempty (apart t stops operator)

theorem accounts_of_shifts {r : ProgramReading} {w : List Token}
    (shifts : (whole table).Shifts start w r) (wellFormed : ∀ t ∈ w, t.WellFormed) :
    r.Accounts table w := by
  have kept := shifts.preserves
    (fun s u => (∀ t ∈ u, t.WellFormed) → s.Accounts table u) (v := [])
  refine kept ?_ ?_ wellFormed
  · intro s u t next before move inside
    exact accounts_step (before fun s member => inside s (by simp [member])) inside move
  · intro _
    exact ⟨[], [], rfl, .nil, rfl, by simp⟩

theorem lists_of_atEnd {r : ProgramReading} {w : List Token} {nodes : List Node}
    (accounts : r.Accounts table w) (wellFormed : ∀ t ∈ w, t.WellFormed)
    (rests : r.atEnd = .ok nodes) : Lists table nodes w := by
  obtain ⟨items, current⟩ := r
  obtain ⟨v, u, rfl, listing, account⟩ := accounts
  cases current with
  | none =>
    obtain ⟨rfl, _⟩ := account
    obtain rfl := Except.ok.inj rests
    simpa using listing
  | some item =>
    obtain ⟨inner, _, follows⟩ := account
    cases found : item.atEnd with
    | error fault => simp [atEnd, found] at rests
    | ok node =>
      simp only [atEnd, found, Except.ok.injEq] at rests
      subst rests
      obtain ⟨item, _⟩ := ItemReading.renders_of_atEnd inner
        (fun s member => wellFormed s (by simp [member])) found
      simpa using lists_append listing (lists_singleton item) follows

theorem begin_ne_finish {items nodes : List Node} {t : Token} :
    begin table items t ≠ .finish nodes := by
  intro move
  unfold begin at move
  split at move
  · cases move
  · cases move
  · cases move
  · obtain ⟨node, finish, _⟩ := Move.within_eq_finish move
    obtain ⟨rests, _⟩ := ItemReading.atEnd_of_finish finish
    simp [ItemReading.bare, ItemReading.atEnd, Expression.atEnd, Expression.start,
      Except.map] at rests

theorem step_ne_finish {r : ProgramReading} {t : Token} {nodes : List Node} :
    step table r t ≠ .finish nodes := by
  intro move
  unfold step at move
  split at move
  · exact begin_ne_finish move
  · obtain ⟨node, _, begun⟩ := Move.within_eq_finish move
    exact begin_ne_finish begun

end ProgramReading

theorem program_eq (tokens : List Token) :
    (Parser.mk tokens 0 table).program = ((parseTokens table tokens).1,
      ⟨tokens, tokens.length - (parseTokens table tokens).2.length, table⟩) := by
  simp only [Parser.program, Parser.read, Parser.remaining, List.drop_zero, Nat.zero_add,
    parseTokens]

/-- A program goes on to the end of its tokens. -/
theorem atEnd_of_parse {tokens rest : List Token} {nodes : List Node}
    (live : ∀ t ∈ tokens, t.kind ≠ .ending) (parse : parseTokens table tokens = (.ok nodes, rest)) :
    rest = [] ∧ ∃ last, (ProgramReading.whole table).Shifts .start tokens last ∧
      last.atEnd = .ok nodes := by
  obtain ⟨w, last, rfl, shifts, result⟩ := Machine.run_eq_ok_iff.mp parse
  cases rest with
  | nil =>
    rw [List.append_nil]
    exact ⟨rfl, last, shifts, result⟩
  | cons t rest =>
    simp only [Machine.Yields, if_neg (live t (by simp))] at result
    exact absurd result ProgramReading.step_ne_finish

/-- A token list is accepted with some items exactly if it lists them, and then to its end. -/
theorem parse_eq_ok_iff {tokens rest : List Token} {nodes : List Node}
    (wellFormed : ∀ t ∈ tokens, t.WellFormed) :
    parseTokens table tokens = (.ok nodes, rest) ↔ rest = [] ∧ Lists table nodes tokens := by
  constructor
  · intro parse
    obtain ⟨rfl, last, shifts, rests⟩ :=
      atEnd_of_parse (fun t member => (wellFormed t member).live) parse
    have accounts := ProgramReading.accounts_of_shifts shifts wellFormed
    exact ⟨rfl, ProgramReading.lists_of_atEnd accounts wellFormed rests⟩
  · rintro ⟨rfl, listing⟩
    exact parse_of_lists listing

theorem program_eq_ok_iff {tokens : List Token} {nodes : List Node} {p : Parser}
    (wellFormed : ∀ t ∈ tokens, t.WellFormed) :
    (Parser.mk tokens 0 table).program = (.ok nodes, p) ↔
      p = ⟨tokens, tokens.length, table⟩ ∧ Lists table nodes tokens := by
  rw [program_eq]
  constructor
  · intro parse
    obtain ⟨result, rfl⟩ := Prod.mk.injEq .. ▸ parse
    obtain ⟨rest, listing⟩ := (parse_eq_ok_iff wellFormed).mp (Prod.ext result rfl)
    exact ⟨by simp [rest], listing⟩
  · rintro ⟨rfl, listing⟩
    simp [parse_of_lists listing]

end Formulary
