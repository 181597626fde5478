import Formulary.Proofs.Parse.Exact

/-!
The parser accepts exactly its grammar. Items need nothing between them, so a name in front of a
parenthesis may end one item or be called; reading it as a call loses nothing, since whatever a
derivation puts behind the parenthesis can stand behind the call.
-/
namespace Formulary

inductive DerivesParams : List Token → Prop where
  | one {t : Token} (kind : t.kind = .name) : DerivesParams [t]
  | more {t comma : Token} {w : List Token} (kind : t.kind = .name) (between : comma.kind = .comma)
      (rest : DerivesParams w) : DerivesParams (t :: comma :: w)

inductive DerivesPrototype : List Token → Prop where
  | empty {t opening closing : Token} (kind : t.kind = .name) (opens : opening.kind = .opening)
      (closes : closing.kind = .closing) : DerivesPrototype [t, opening, closing]
  | params {t opening closing : Token} {w : List Token} (kind : t.kind = .name)
      (opens : opening.kind = .opening) (inner : DerivesParams w)
      (closes : closing.kind = .closing) : DerivesPrototype (t :: opening :: (w ++ [closing]))

inductive DerivesProgram (table : OperatorTable) : List Token → Prop where
  | nil : DerivesProgram table []
  | separator {t : Token} {u : List Token} (kind : t.kind = .separator)
      (rest : DerivesProgram table u) : DerivesProgram table (t :: u)
  | definition {t : Token} {v w u : List Token} (kind : t.kind = .definition)
      (signature : DerivesPrototype v) (body : Derives table .expression w)
      (rest : DerivesProgram table u) : DerivesProgram table (t :: (v ++ (w ++ u)))
  | declaration {t : Token} {v u : List Token} (kind : t.kind = .declaration)
      (signature : DerivesPrototype v) (rest : DerivesProgram table u) :
      DerivesProgram table (t :: (v ++ u))
  | bare {w u : List Token} (body : Derives table .expression w) (rest : DerivesProgram table u) :
      DerivesProgram table (w ++ u)

variable {table : OperatorTable}

theorem derivesParams_of_renders {params : List String} {w : List Token}
    (rendering : RendersParams params w) (nonempty : params ≠ []) : DerivesParams w := by
  induction rendering with
  | none => exact absurd rfl nonempty
  | one token => exact .one token.1
  | more token kind _ ih => exact .more token.1 kind (ih (by simp))

theorem derivesPrototype_of_renders {p : Prototype} {w : List Token}
    (rendering : RendersPrototype p w) : DerivesPrototype w := by
  cases rendering with
  | @mk name params _ _ _ _ token opens inner closes =>
    cases params with
    | nil =>
      cases inner
      exact .empty token.1 opens closes
    | cons first rest =>
      exact .params token.1 opens (derivesParams_of_renders inner (by simp)) closes

theorem derivesProgram_of_lists {nodes : List Node} {w : List Token}
    (listing : Lists table nodes w) : DerivesProgram table w := by
  induction listing with
  | nil => exact .nil
  | separator kind _ ih => exact .separator kind ih
  | item first _ _ ih =>
    cases first with
    | declaration kind signature =>
      exact .declaration kind (derivesPrototype_of_renders signature) ih
    | definition kind _ signature body =>
      simpa using DerivesProgram.definition kind (derivesPrototype_of_renders signature)
        (derivable_of_renders body).1 ih
    | bare body => exact .bare (derivable_of_renders body).1 ih

theorem renders_of_derivesParams {w : List Token} (derivation : DerivesParams w)
    (wellFormed : ∀ t ∈ w, t.WellFormed) :
    ∃ (first : String) (params : List String), RendersParams (first :: params) w := by
  induction derivation with
  | @one t kind =>
    have token := (wellFormed t (by simp)).carries_text kind (by simp)
    exact ⟨_, [], .one token⟩
  | @more t comma w kind between _ ih =>
    have token := (wellFormed t (by simp)).carries_text kind (by simp)
    obtain ⟨first, params, rest⟩ := ih fun s member => wellFormed s (by simp [member])
    exact ⟨_, first :: params, .more token between rest⟩

theorem renders_of_derivesPrototype {w : List Token} (derivation : DerivesPrototype w)
    (wellFormed : ∀ t ∈ w, t.WellFormed) : ∃ p : Prototype, RendersPrototype p w := by
  cases derivation with
  | @empty t _ _ kind opens closes =>
    have token := (wellFormed t (by simp)).carries_text kind (by simp)
    exact ⟨_, .mk token opens .none closes⟩
  | @params t _ _ w kind opens inner closes =>
    have token := (wellFormed t (by simp)).carries_text kind (by simp)
    obtain ⟨first, params, names⟩ := renders_of_derivesParams inner
      fun s member => wellFormed s (by simp [member])
    exact ⟨_, .mk token opens names closes⟩

/-! ## A name in front of a parenthesis -/

theorem operand_call {t opening : Token} {w : List Token} (kind : t.kind = .name)
    (opens : opening.kind = .opening) (operand : Derives table .operand (opening :: w)) :
    Derives table .operand (t :: opening :: w) := by
  cases operand with
  | number other => simp [opens] at other
  | name other => simp [opens] at other
  | emptyCall other => simp [opens] at other
  | call other => simp [opens] at other
  | group _ inner closes => exact .call kind opens (.argument inner) closes

theorem expression_call {t opening : Token} {w : List Token} (kind : t.kind = .name)
    (opens : opening.kind = .opening) (derivation : Derives table .expression (opening :: w)) :
    Derives table .expression (t :: opening :: w) := by
  generalize same : opening :: w = run at derivation
  cases derivation with
  | single only =>
    subst same
    exact .single (operand_call kind opens only)
  | @operation s power v u first operator known rest =>
    cases v with
    | nil => cases first
    | cons head v =>
      obtain ⟨rfl, rfl⟩ := List.cons.inj same
      exact .operation (operand_call kind opens first) operator known rest

theorem operand_last {w : List Token} {last : Token} (operand : Derives table .operand w)
    (isLast : w.getLast? = some last) (name : last.kind = .name) : w = [last] := by
  cases operand with
  | number kind =>
    obtain rfl := Option.some.inj isLast
    rfl
  | name kind =>
    obtain rfl := Option.some.inj isLast
    rfl
  | emptyCall _ _ closes =>
    obtain rfl := Option.some.inj isLast
    simp [closes] at name
  | @call t opening closing w _ _ _ closes =>
    rw [← List.cons_append, ← List.cons_append, List.getLast?_concat] at isLast
    obtain rfl := Option.some.inj isLast
    simp [closes] at name
  | @group opening closing w _ _ closes =>
    rw [← List.cons_append, List.getLast?_concat] at isLast
    obtain rfl := Option.some.inj isLast
    simp [closes] at name

/-- An expression that ends in a name and one that begins with a parenthesis are one expression. -/
theorem expression_join {w u : List Token} {last opening : Token}
    (first : Derives table .expression w) (isLast : w.getLast? = some last)
    (name : last.kind = .name) (opens : opening.kind = .opening)
    (second : Derives table .expression (opening :: u)) :
    Derives table .expression (w ++ opening :: u) := by
  revert isLast
  refine derives_induction (motive := fun w => w.getLast? = some last →
    Derives table .expression (w ++ opening :: u)) ?_ ?_ first
  · intro w only isLast
    obtain rfl := operand_last only isLast name
    exact expression_call name opens second
  · intro t power v w operand kind known _ ih isLast
    have after : w.getLast? = some last := by
      rw [List.getLast?_append, List.getLast?_cons] at isLast
      cases found : w.getLast? with
      | none =>
        obtain rfl : t = last := by simpa [found] using isLast
        simp [kind] at name
      | some other => simpa [found] using isLast
    simpa using Derives.operation operand kind known (ih after)

theorem lists_opening {nodes : List Node} {opening : Token} {u : List Token}
    (listing : Lists table nodes (opening :: u)) (opens : opening.kind = .opening) :
    ∃ (others : List Node) (v rest : List Token), u = v ++ rest ∧
      Derives table .expression (opening :: v) ∧ Follows (opening :: v) rest ∧
        Lists table others rest := by
  generalize same : opening :: u = run at listing
  cases listing with
  | nil => cases same
  | separator kind =>
    obtain ⟨rfl, _⟩ := List.cons.inj same
    simp [opens] at kind
  | @item node nodes v w first apart rest =>
    obtain ⟨head, tail, rfl⟩ := List.exists_cons_of_ne_nil (item_nonempty first)
    obtain ⟨rfl, rfl⟩ := List.cons.inj same
    refine ⟨nodes, tail, w, rfl, ?_, apart, rest⟩
    generalize run : opening :: tail = item at first
    cases first with
    | declaration kind =>
      obtain ⟨rfl, _⟩ := List.cons.inj run
      simp [opens] at kind
    | definition kind =>
      obtain ⟨rfl, _⟩ := List.cons.inj run
      simp [opens] at kind
    | bare body => exact (derivable_of_renders body).1

theorem lists_head {nodes : List Node} {t : Token} {w : List Token}
    (listing : Lists table nodes (t :: w)) : t.kind ≠ .operator := by
  generalize same : t :: w = run at listing
  cases listing with
  | nil => cases same
  | separator kind =>
    obtain ⟨rfl, _⟩ := List.cons.inj same
    simp [kind]
  | item first =>
    obtain ⟨head, tail, rfl⟩ := List.exists_cons_of_ne_nil (item_nonempty first)
    obtain ⟨rfl, _⟩ := List.cons.inj same
    generalize run : t :: tail = item at first
    cases first with
    | declaration kind =>
      obtain ⟨rfl, _⟩ := List.cons.inj run
      simp [kind]
    | definition kind =>
      obtain ⟨rfl, _⟩ := List.cons.inj run
      simp [kind]
    | bare body =>
      subst run
      rcases Expression.renders_head body with kind | kind | kind <;> simp [kind]

/-- What carries an expression on in front of a listing: a parenthesis behind a name. -/
theorem opening_of_not_follows {w u : List Token} {nodes : List Node}
    (listing : Lists table nodes u) (carried : ¬ Follows w u) :
    ∃ (opening last : Token) (v : List Token), u = opening :: v ∧ opening.kind = .opening ∧
      w.getLast? = some last ∧ last.kind = .name := by
  cases u with
  | nil => simp [Follows] at carried
  | cons t v =>
    apply Classical.byContradiction
    intro free
    apply carried
    intro s member
    obtain rfl := Option.some.inj member
    refine ⟨lists_head listing, ?_⟩
    intro opens last isLast name
    exact free ⟨t, last, v, rfl, opens, isLast, name⟩

/-- An expression in front of a listing. Where the listing would carry it on, the first item joins
it, and what is behind that item is left. -/
theorem lists_body {w u : List Token} {nodes : List Node} (body : Derives table .expression w)
    (wellFormed : ∀ t ∈ w ++ u, t.WellFormed) (listing : Lists table nodes u) :
    ∃ (e : Node) (loosest : Option Nat) (others : List Node) (v rest : List Token),
      w ++ u = v ++ rest ∧ Renders table (.expression e loosest) v ∧ Follows v rest ∧
        Lists table others rest := by
  by_cases follows : Follows w u
  · obtain ⟨e, loosest, rendering⟩ :=
      hasTree_of_derives body fun t member => wellFormed t (by simp [member])
    exact ⟨e, loosest, nodes, w, u, rfl, rendering, follows, listing⟩
  · obtain ⟨opening, last, v, rfl, opens, isLast, name⟩ :=
      opening_of_not_follows listing follows
    obtain ⟨others, v, rest, rfl, second, apart, left⟩ := lists_opening listing opens
    have joined := expression_join body isLast name opens second
    obtain ⟨e, loosest, rendering⟩ := hasTree_of_derives joined
      fun t member => wellFormed t (by simpa using List.mem_append_left rest member)
    exact ⟨e, loosest, others, w ++ opening :: v, rest, by simp, rendering,
      follows_append w (by simp) apart, left⟩

theorem lists_of_derivesProgram {w : List Token} (derivation : DerivesProgram table w)
    (wellFormed : ∀ t ∈ w, t.WellFormed) : ∃ nodes : List Node, Lists table nodes w := by
  induction derivation with
  | nil => exact ⟨[], .nil⟩
  | separator kind _ ih =>
    obtain ⟨nodes, listing⟩ := ih fun s member => wellFormed s (by simp [member])
    exact ⟨nodes, .separator kind listing⟩
  | @definition t v w u kind signature body _ ih =>
    obtain ⟨nodes, listing⟩ := ih fun s member => wellFormed s (by simp [member])
    obtain ⟨p, prototype⟩ := renders_of_derivesPrototype signature
      fun s member => wellFormed s (by simp [member])
    have named := named_of_renders prototype fun s member => wellFormed s (by simp [member])
    obtain ⟨e, loosest, others, v', rest, same, rendering, apart, left⟩ :=
      lists_body body (fun s member => wellFormed s (by
        rw [← List.cons_append]
        exact List.mem_append_right _ member)) listing
    rw [same]
    have nonempty := item_nonempty (.bare rendering)
    have item := RendersItem.definition kind named prototype rendering
    have listed := Lists.item item (follows_append (t :: v) nonempty apart) left
    exact ⟨_, by simpa using listed⟩
  | @declaration t v u kind signature _ ih =>
    obtain ⟨nodes, listing⟩ := ih fun s member => wellFormed s (by simp [member])
    obtain ⟨p, prototype⟩ := renders_of_derivesPrototype signature
      fun s member => wellFormed s (by simp [member])
    have apart : Follows v u := follows_prototype prototype (by
      intro s member
      obtain ⟨rest, rfl⟩ := List.head?_eq_some_iff.mp member
      exact lists_head listing)
    have between := follows_append [t] (prototype_nonempty prototype) apart
    exact ⟨_, .item (.declaration kind prototype) between listing⟩
  | bare body _ ih =>
    obtain ⟨nodes, listing⟩ := ih fun s member => wellFormed s (by simp [member])
    obtain ⟨e, loosest, others, v, rest, same, rendering, apart, left⟩ :=
      lists_body body wellFormed listing
    rw [same]
    exact ⟨_, .item (.bare rendering) apart left⟩

/-- A token list is accepted exactly if the grammar derives it. -/
theorem program_accepts_iff (table : OperatorTable) (tokens : List Token)
    (wellFormed : ∀ t ∈ tokens, t.WellFormed) :
    (∃ (nodes : List Node) (p : Parser), (Parser.mk tokens 0 table).program = (.ok nodes, p)) ↔
      DerivesProgram table tokens := by
  constructor
  · rintro ⟨nodes, p, parse⟩
    obtain ⟨_, listing⟩ := (program_eq_ok_iff wellFormed).mp parse
    exact derivesProgram_of_lists listing
  · intro derivation
    obtain ⟨nodes, listing⟩ := lists_of_derivesProgram derivation wellFormed
    exact ⟨nodes, _, (program_eq_ok_iff wellFormed).mpr ⟨rfl, listing⟩⟩

/-- The call and the two items that the same tokens could be. -/
theorem program_accepts_call :
    let f : Token := ⟨.name, .text "f", .nowhere⟩
    let opening : Token := ⟨.opening, .text "(", .nowhere⟩
    let x : Token := ⟨.name, .text "x", .nowhere⟩
    let closing : Token := ⟨.closing, .text ")", .nowhere⟩
    let tokens := [f, opening, x, closing]
    (∀ t ∈ tokens, t.WellFormed) ∧ DerivesProgram .default tokens ∧
      ∃ (nodes : List Node) (p : Parser),
        (Parser.mk tokens 0 .default).program = (.ok nodes, p) := by
  intro f opening x closing tokens
  have apart : DerivesProgram .default ([f] ++ (opening :: ([x] ++ [closing]) ++ [])) :=
    .bare (.single (.name rfl)) (.bare (.single (.group rfl (.single (.name rfl)) rfl)) .nil)
  have wellFormed : ∀ t ∈ tokens, t.WellFormed := by decide
  exact ⟨wellFormed, apart, (program_accepts_iff .default tokens wellFormed).mpr apart⟩

end Formulary
