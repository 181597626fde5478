import Formulary.Proofs.Parse.Acceptance
import Formulary.Proofs.Parse.Refusal

/-!
Errors come at the first impossible token. Whatever the parser has taken can be carried on to a
program, so a token that it refuses is the first that cannot be. What the tokens taken so far
leave open is said by the grammar alone: where an operand may begin, and where one ends.
-/
namespace Formulary

/-- The parser takes the tokens for a program. -/
def Accepts (table : OperatorTable) (tokens : List Token) : Prop :=
  ∃ (nodes : List Node) (p : Parser), (Parser.mk tokens 0 table).program = (.ok nodes, p)

/-- The tokens begin some program. -/
def Viable (table : OperatorTable) (tokens : List Token) : Prop :=
  ∃ rest : List Token, (∀ t ∈ rest, t.WellFormed) ∧ Accepts table (tokens ++ rest)

/-- Tokens behind which an operand of an expression may begin. -/
inductive AwaitsOperand (table : OperatorTable) : List Token → Prop where
  | item {v : List Token} (before : DerivesProgram table v) : AwaitsOperand table v
  | body {t : Token} {v w : List Token} (before : DerivesProgram table v)
      (kind : t.kind = .definition) (signature : DerivesPrototype w) :
      AwaitsOperand table (v ++ t :: w)
  | group {opening : Token} {v : List Token} (before : AwaitsOperand table v)
      (opens : opening.kind = .opening) : AwaitsOperand table (v ++ [opening])
  | argument {t opening : Token} {v : List Token} (before : AwaitsOperand table v)
      (kind : t.kind = .name) (opens : opening.kind = .opening) :
      AwaitsOperand table (v ++ [t, opening])
  | nextArgument {t opening comma : Token} {v w : List Token} (before : AwaitsOperand table v)
      (kind : t.kind = .name) (opens : opening.kind = .opening)
      (done : Derives table .arguments w) (between : comma.kind = .comma) :
      AwaitsOperand table (v ++ t :: opening :: (w ++ [comma]))
  | operator {t : Token} {power : Nat} {v w : List Token} (before : AwaitsOperand table v)
      (first : Derives table .operand w) (kind : t.kind = .operator)
      (known : table.powerOf? t.value.plain = some power) :
      AwaitsOperand table (v ++ (w ++ [t]))

/-- Tokens that end in a complete operand of an expression. -/
def EndsOperand (table : OperatorTable) (tokens : List Token) : Prop :=
  ∃ v w : List Token, tokens = v ++ w ∧ AwaitsOperand table v ∧ Derives table .operand w

variable {table : OperatorTable}

/-! ## Completions -/

/-- Tokens to complete a program with. -/
def someName : Token := ⟨.name, .text "x", .nowhere⟩

def someOpening : Token := ⟨.opening, .text "(", .nowhere⟩

def someClosing : Token := ⟨.closing, .text ")", .nowhere⟩

theorem wellFormed_someName : someName.WellFormed := by decide

theorem wellFormed_someClosing : someClosing.WellFormed := by decide

theorem derivesProgram_append {v w : List Token} (first : DerivesProgram table v)
    (second : DerivesProgram table w) : DerivesProgram table (v ++ w) := by
  induction first with
  | nil => exact second
  | separator kind _ ih => exact .separator kind ih
  | definition kind signature body _ ih =>
    simpa using DerivesProgram.definition kind signature body ih
  | declaration kind signature _ ih => simpa using DerivesProgram.declaration kind signature ih
  | bare body _ ih => simpa using DerivesProgram.bare body ih

theorem derives_arguments_snoc {comma : Token} {v w : List Token}
    (done : Derives table .arguments v) (between : comma.kind = .comma)
    (last : Derives table .expression w) : Derives table .arguments (v ++ comma :: w) := by
  generalize same : Category.arguments = category at done
  induction done with
  | argument only => exact .moreArguments only between (.argument last)
  | moreArguments first kind _ _ ih => simpa using Derives.moreArguments first kind (ih same)
  | _ => cases same

/-- Where an operand may begin an expression may, and the program can be completed behind it. -/
theorem program_of_awaits {v : List Token} (awaits : AwaitsOperand table v) :
    ∀ w : List Token, Derives table .expression w →
      ∃ rest : List Token, (∀ t ∈ rest, t.WellFormed) ∧
        DerivesProgram table (v ++ (w ++ rest)) := by
  have closes : someClosing.kind = .closing := rfl
  have enclosed {rest : List Token} (wellFormed : ∀ t ∈ rest, t.WellFormed) :
      ∀ t ∈ someClosing :: rest, t.WellFormed :=
    List.forall_mem_cons.mpr ⟨wellFormed_someClosing, wellFormed⟩
  induction awaits with
  | item before =>
    intro w inner
    exact ⟨[], by simp, derivesProgram_append before (.bare inner .nil)⟩
  | body before kind signature =>
    intro w inner
    have whole := derivesProgram_append before (.definition kind signature inner .nil)
    exact ⟨[], by simp, by simpa using whole⟩
  | group _ opens ih =>
    intro w inner
    obtain ⟨rest, wellFormed, whole⟩ := ih _ (.single (.group opens inner closes))
    exact ⟨someClosing :: rest, enclosed wellFormed, by simpa using whole⟩
  | argument _ kind opens ih =>
    intro w inner
    obtain ⟨rest, wellFormed, whole⟩ := ih _ (.single (.call kind opens (.argument inner) closes))
    exact ⟨someClosing :: rest, enclosed wellFormed, by simpa using whole⟩
  | nextArgument _ kind opens done between ih =>
    intro w inner
    have arguments := derives_arguments_snoc done between inner
    obtain ⟨rest, wellFormed, whole⟩ := ih _ (.single (.call kind opens arguments closes))
    exact ⟨someClosing :: rest, enclosed wellFormed, by simpa using whole⟩
  | operator _ first kind known ih =>
    intro w inner
    obtain ⟨rest, wellFormed, whole⟩ := ih _ (.operation first kind known inner)
    exact ⟨rest, wellFormed, by simpa using whole⟩

/-- The tokens begin what the grammar derives. -/
def Begins (table : OperatorTable) (tokens : List Token) : Prop :=
  ∃ rest : List Token, (∀ t ∈ rest, t.WellFormed) ∧ DerivesProgram table (tokens ++ rest)

theorem begins_of_awaits {w : List Token} (awaits : AwaitsOperand table w) : Begins table w := by
  obtain ⟨rest, wellFormed, whole⟩ := program_of_awaits awaits [someName] (.single (.name rfl))
  exact ⟨someName :: rest, List.forall_mem_cons.mpr ⟨wellFormed_someName, wellFormed⟩, whole⟩

theorem begins_of_ends {w : List Token} (ends : EndsOperand table w) : Begins table w := by
  obtain ⟨v, u, rfl, awaits, operand⟩ := ends
  obtain ⟨rest, wellFormed, whole⟩ := program_of_awaits awaits u (.single operand)
  exact ⟨rest, wellFormed, by simpa using whole⟩

theorem PrototypeReading.completes {r : PrototypeReading} {w : List Token} (accounts : r.Accounts w) :
    ∃ (p : Prototype) (rest : List Token), (∀ t ∈ rest, t.WellFormed) ∧
      RendersPrototype p (w ++ rest) := by
  have token : someName.Carries .name (.text "x") := ⟨rfl, rfl⟩
  have opens : someOpening.kind = .opening := rfl
  have closes : someClosing.kind = .closing := rfl
  cases r with
  | start =>
    obtain rfl := accounts
    exact ⟨_, [someName, someOpening, someClosing], by decide, .mk token opens .none closes⟩
  | opening name =>
    obtain ⟨t, rfl, named⟩ := accounts
    exact ⟨_, [someOpening, someClosing], by decide, .mk named opens .none closes⟩
  | firstParam name =>
    obtain ⟨t, opening, rfl, named, opened⟩ := accounts
    exact ⟨_, [someClosing], by decide, .mk named opened .none closes⟩
  | param name params =>
    obtain ⟨t, opening, comma, v, rfl, named, opened, inner, nonempty, between⟩ := accounts
    have longer := renders_params_snoc inner nonempty between token
    refine ⟨⟨name, params ++ ["x"]⟩, [someName, someClosing], by decide, ?_⟩
    simpa using RendersPrototype.mk named opened longer closes
  | afterParam name params =>
    obtain ⟨t, opening, v, rfl, named, opened, inner, _⟩ := accounts
    exact ⟨⟨name, params⟩, [someClosing], by decide, .mk named opened inner closes⟩
  | complete p =>
    have rendering : RendersPrototype p w := accounts
    exact ⟨p, [], by simp, by simpa using rendering⟩

/-! ## What a reading leaves open -/

theorem awaits_operator {t : Token} {power : Nat} {w : List Token} (kind : t.kind = .operator)
    (known : table.powerOf? t.value.plain = some power) (first : Derives table .expression w) :
    ∀ v : List Token, AwaitsOperand table v → AwaitsOperand table (v ++ (w ++ [t])) := by
  refine derives_induction (motive := fun w => ∀ v : List Token, AwaitsOperand table v →
    AwaitsOperand table (v ++ (w ++ [t]))) ?_ ?_ first
  · intro w only v before
    exact .operator before only kind known
  · intro s p u x operand other present _ ih v before
    simpa using ih _ (.operator before operand other present)

theorem awaits_of_opened {frames : List Frame} {base w : List Token}
    (opened : Opened table frames w) (awaits : AwaitsOperand table base) :
    AwaitsOperand table (base ++ w) := by
  induction opened with
  | nil => simpa using awaits
  | operation _ _ first _ token known ih =>
    have present := token.plain.symm ▸ known
    simpa using awaits_operator token.1 present (derivable_of_renders first).1 _ ih
  | group _ opens ih => simpa using AwaitsOperand.group ih opens
  | call _ token opens done ih =>
    rcases done with ⟨rfl, rfl⟩ | ⟨u, comma, rfl, between, nonempty, inner⟩
    · simpa using AwaitsOperand.argument ih token.1 opens
    · have arguments := derivable_of_renders inner nonempty
      simpa using AwaitsOperand.nextArgument ih token.1 opens arguments between

theorem Reading.Accounts.awaits {r : Reading} {base w : List Token} (accounts : r.Accounts table w)
    (awaits : AwaitsOperand table base) (incomplete : r.focus.operand? = none) :
    AwaitsOperand table (base ++ w) := by
  obtain ⟨frames, focus⟩ := r
  cases focus with
  | operand => exact awaits_of_opened accounts awaits
  | argument => exact awaits_of_opened accounts.1 awaits
  | name text => simp [Focus.operand?] at incomplete
  | complete e => simp [Focus.operand?] at incomplete

theorem Reading.Accounts.ends {r : Reading} {base w : List Token} (accounts : r.Accounts table w)
    (awaits : AwaitsOperand table base) (complete : r.focus.operand?.isSome = true) :
    EndsOperand table (base ++ w) := by
  obtain ⟨operand, present⟩ := Option.isSome_iff_exists.mp complete
  obtain ⟨v, u, rfl, opened, rendering⟩ := accounts.operand present
  exact ⟨base ++ v, u, by simp, awaits_of_opened opened awaits,
    (derivable_of_renders rendering).2 rfl⟩

theorem awaits_of_head {p : Prototype} {v w : List Token} (before : DerivesProgram table v)
    (head : RendersHead p w) : AwaitsOperand table (v ++ w) := by
  rcases head with ⟨_, rfl⟩ | ⟨_, t, u, rfl, kind, signature⟩
  · simpa using AwaitsOperand.item before
  · exact .body before kind (derivesPrototype_of_renders signature)

theorem ItemReading.begins_of_accounts {r : ItemReading} {v w : List Token}
    (before : DerivesProgram table v) (accounts : r.Accounts table w)
    (wellFormed : ∀ t ∈ w, t.WellFormed) : Begins table (v ++ w) := by
  cases r with
  | declaration r =>
    obtain ⟨t, u, rfl, kind, inner⟩ := accounts
    obtain ⟨p, rest, completed, signature⟩ := PrototypeReading.completes inner
    have whole := derivesProgram_append before
      (.declaration kind (derivesPrototype_of_renders signature) .nil)
    exact ⟨rest, completed, by simpa using whole⟩
  | definition r =>
    obtain ⟨t, u, rfl, kind, inner⟩ := accounts
    obtain ⟨p, rest, completed, signature⟩ := PrototypeReading.completes inner
    obtain ⟨more, closed, whole⟩ :=
      begins_of_awaits (.body before kind (derivesPrototype_of_renders signature))
    refine ⟨rest ++ more, ?_, by simpa using whole⟩
    exact List.forall_mem_append.mpr ⟨completed, closed⟩
  | body p r =>
    obtain ⟨head, u, rfl, heads, shifts⟩ := accounts
    have awaits := awaits_of_head before heads
    have inner := Expression.accounts_of_shifts (v := []) shifts .nil
      fun t member => wellFormed t (List.mem_append_right head member)
    cases complete : r.focus.operand? with
    | none => simpa using begins_of_awaits (inner.awaits awaits complete)
    | some operand => simpa using begins_of_ends (inner.ends awaits (by simp [complete]))

theorem ItemReading.ends_of_accounts {r : ItemReading} {v w : List Token}
    (before : DerivesProgram table v) (accounts : r.Accounts table w)
    (wellFormed : ∀ t ∈ w, t.WellFormed) (complete : r.operand?.isSome = true) :
    EndsOperand table (v ++ w) := by
  cases r with
  | declaration r => simp [operand?] at complete
  | definition r => simp [operand?] at complete
  | body p r =>
    obtain ⟨head, u, rfl, heads, shifts⟩ := accounts
    have inner := Expression.accounts_of_shifts (v := []) shifts .nil
      fun t member => wellFormed t (List.mem_append_right head member)
    simpa using inner.ends (awaits_of_head before heads) complete

namespace ProgramReading

theorem begins_of_accounts {r : ProgramReading} {w : List Token} (accounts : r.Accounts table w)
    (wellFormed : ∀ t ∈ w, t.WellFormed) : Begins table w := by
  obtain ⟨items, current⟩ := r
  obtain ⟨v, u, rfl, listing, account⟩ := accounts
  have before := derivesProgram_of_lists listing
  cases current with
  | none =>
    obtain ⟨rfl, _⟩ := account
    exact ⟨[], by simp, by simpa using before⟩
  | some item =>
    exact item.begins_of_accounts before account.1
      fun t member => wellFormed t (List.mem_append_right v member)

theorem ends_of_accounts {r : ProgramReading} {w : List Token} (accounts : r.Accounts table w)
    (wellFormed : ∀ t ∈ w, t.WellFormed) (complete : r.operand?.isSome = true) :
    EndsOperand table w := by
  obtain ⟨items, current⟩ := r
  obtain ⟨v, u, rfl, listing, account⟩ := accounts
  cases current with
  | none => simp [operand?] at complete
  | some item =>
    exact item.ends_of_accounts (derivesProgram_of_lists listing) account.1
      (fun t member => wellFormed t (List.mem_append_right v member)) complete

end ProgramReading

end Formulary
