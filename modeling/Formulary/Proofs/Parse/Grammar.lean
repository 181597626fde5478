import Formulary.Proofs.Parse.Rendering

/-!
The grammar of expressions, without powers: operands with operators of the table between them.
Whatever the powers are, a run of tokens that the grammar derives is the rendering of some tree,
and a rendering is always derived.
-/
namespace Formulary

inductive Category where
  | operand
  | expression
  | arguments

inductive Derives (table : OperatorTable) : Category → List Token → Prop where
  | number {t : Token} (kind : t.kind = .number) : Derives table .operand [t]
  | name {t : Token} (kind : t.kind = .name) : Derives table .operand [t]
  | emptyCall {t opening closing : Token} (kind : t.kind = .name) (opens : opening.kind = .opening)
      (closes : closing.kind = .closing) : Derives table .operand [t, opening, closing]
  | call {t opening closing : Token} {w : List Token} (kind : t.kind = .name)
      (opens : opening.kind = .opening) (inner : Derives table .arguments w)
      (closes : closing.kind = .closing) : Derives table .operand (t :: opening :: (w ++ [closing]))
  | group {opening closing : Token} {w : List Token} (opens : opening.kind = .opening)
      (inner : Derives table .expression w) (closes : closing.kind = .closing) :
      Derives table .operand (opening :: (w ++ [closing]))
  | single {w : List Token} (only : Derives table .operand w) : Derives table .expression w
  | operation {t : Token} {power : Nat} {v w : List Token} (first : Derives table .operand v)
      (kind : t.kind = .operator) (known : table.powerOf? t.value.plain = some power)
      (rest : Derives table .expression w) : Derives table .expression (v ++ t :: w)
  | argument {w : List Token} (only : Derives table .expression w) : Derives table .arguments w
  | moreArguments {comma : Token} {v w : List Token} (first : Derives table .expression v)
      (kind : comma.kind = .comma) (rest : Derives table .arguments w) :
      Derives table .arguments (v ++ comma :: w)

/-- A token as a text may hold it: it has a number if its kind says so, and some text if not. -/
structure Token.WellFormed (t : Token) : Prop where
  live : t.kind ≠ .ending
  known : ∀ tag : String, t.kind ≠ .other tag
  number : t.kind = .number → ∃ x : Binary64, t.value = .number x
  text : t.kind ≠ .number → ∃ s : String, s ≠ "" ∧ t.value = .text s

namespace Token.WellFormed

theorem carries_number {t : Token} (wellFormed : t.WellFormed) (kind : t.kind = .number) :
    ∃ x : Binary64, t.Carries .number (.number x) := by
  obtain ⟨x, value⟩ := wellFormed.number kind
  exact ⟨x, kind, value⟩

theorem carries_text {t : Token} {kind : TokenKind} (wellFormed : t.WellFormed)
    (same : t.kind = kind) (other : kind ≠ .number) : t.Carries kind (.text t.value.plain) := by
  obtain ⟨s, _, value⟩ := wellFormed.text (same ▸ other)
  have plain : t.value.plain = s := by rw [value, TokenValue.plain]
  rw [plain]
  exact ⟨same, value⟩

theorem text_ne_empty {t : Token} {kind : TokenKind} {s : String} (wellFormed : t.WellFormed)
    (token : t.Carries kind (.text s)) (other : kind ≠ .number) : s ≠ "" := by
  obtain ⟨same, value⟩ := token
  obtain ⟨held, nonempty, holds⟩ := wellFormed.text (same ▸ other)
  obtain rfl := TokenValue.text.inj (value.symm.trans holds)
  exact nonempty

end Token.WellFormed

namespace Token

/-- Whether a token is one that a text may hold. -/
def isWellFormed (t : Token) : Bool :=
  match t.kind, t.value with
  | .ending, _ => false
  | .other _, _ => false
  | .number, .number _ => true
  | .number, _ => false
  | _, .text s => s != ""
  | _, _ => false

theorem wellFormed_iff {t : Token} : t.WellFormed ↔ t.isWellFormed = true := by
  obtain ⟨kind, value, place⟩ := t
  constructor
  · rintro ⟨live, known, number, text⟩
    by_cases same : kind = .number
    · obtain ⟨x, held⟩ := number same
      simp_all [isWellFormed]
    · obtain ⟨s, nonempty, held⟩ := text same
      cases kind <;> simp_all [isWellFormed]
  · intro checked
    constructor <;> cases kind <;> cases value <;> simp_all [isWellFormed]

instance (t : Token) : Decidable t.WellFormed := decidable_of_iff' _ wellFormed_iff

end Token

variable {table : OperatorTable}

/-- Induction on the operators of an expression, from the last operand on. -/
theorem derives_induction {motive : List Token → Prop}
    (single : ∀ w, Derives table .operand w → motive w)
    (operation : ∀ (t : Token) (power : Nat) (v w : List Token), Derives table .operand v →
      t.kind = .operator → table.powerOf? t.value.plain = some power →
        Derives table .expression w → motive w → motive (v ++ t :: w))
    {w : List Token} (derivation : Derives table .expression w) : motive w := by
  generalize same : Category.expression = category at derivation
  induction derivation with
  | single only => exact single _ only
  | operation first kind known rest _ ih => exact operation _ _ _ _ first kind known rest (ih same)
  | _ => cases same

theorem derives_append {v w : List Token} {t : Token} {power : Nat}
    (first : Derives table .expression v) (kind : t.kind = .operator)
    (known : table.powerOf? t.value.plain = some power) (second : Derives table .expression w) :
    Derives table .expression (v ++ t :: w) := by
  refine derives_induction (motive := fun v => Derives table .expression (v ++ t :: w)) ?_ ?_ first
  · intro u only
    exact .operation only kind known second
  · intro s p u x operand inner present _ ih
    simpa using Derives.operation operand inner present ih

/-- The loosest power of an expression that an operand and an operator are put in front of. -/
def looser (power : Nat) : Option Nat → Nat
  | none => power
  | some p => min power p

theorem renders_in_front {first e : Node} {op : String} {power : Nat} {loosest : Option Nat}
    {t : Token} {v w : List Token} (operand : Renders table (.expression first none) v)
    (token : t.Carries .operator (.text op)) (known : table.powerOf? op = some power)
    (rendering : Renders table (.expression e loosest) w) (tighter : ∀ p ∈ loosest, power < p) :
    ∃ e' : Node, Renders table (.expression e' (some (looser power loosest))) (v ++ t :: w) := by
  have same : looser power loosest = power := by
    cases loosest with
    | none => rfl
    | some p =>
      have := tighter p rfl
      simp only [looser]
      omega
  rw [same]
  exact ⟨_, .binary token known operand (by simp) rendering tighter⟩

/-- Induction down the left side of an expression, past the operators without parentheses. -/
theorem renders_induction {motive : Option Nat → List Token → Prop}
    (operand : ∀ (e : Node) (w : List Token), Renders table (.expression e none) w → motive none w)
    (binary : ∀ (op : String) (power : Nat) (left right : Node) (a b : Option Nat) (t : Token)
      (v w : List Token), t.Carries .operator (.text op) → table.powerOf? op = some power →
        Renders table (.expression left a) v → (∀ p ∈ a, power ≤ p) →
          Renders table (.expression right b) w → (∀ p ∈ b, power < p) → motive a v →
            motive (some power) (v ++ t :: w))
    {e : Node} {loosest : Option Nat} {w : List Token}
    (rendering : Renders table (.expression e loosest) w) : motive loosest w := by
  generalize same : Phrase.expression e loosest = phrase at rendering
  induction rendering generalizing e loosest with
  | number token => cases same; exact operand _ _ (.number token)
  | reference token => cases same; exact operand _ _ (.reference token)
  | call token opens inner closes => cases same; exact operand _ _ (.call token opens inner closes)
  | group opens inner closes => cases same; exact operand _ _ (.group opens inner closes)
  | binary token known first leftBinds second rightBinds ih =>
    cases same
    exact binary _ _ _ _ _ _ _ _ _ token known first leftBinds second rightBinds (ih rfl)
  | _ => cases same

/-- An operand and an operator in front of a rendering go down its left side, past the operators
that are not tighter. -/
theorem renders_attach {first e : Node} {op : String} {power : Nat} {loosest : Option Nat}
    {t : Token} {v w : List Token} (operand : Renders table (.expression first none) v)
    (token : t.Carries .operator (.text op)) (known : table.powerOf? op = some power)
    (rendering : Renders table (.expression e loosest) w) :
    ∃ e' : Node, Renders table (.expression e' (some (looser power loosest))) (v ++ t :: w) := by
  refine renders_induction (motive := fun loosest w => ∃ e' : Node,
    Renders table (.expression e' (some (looser power loosest))) (v ++ t :: w)) ?_ ?_ rendering
  · intro e w whole
    exact renders_in_front operand token known whole (by simp)
  · intro op' p _ right a _ _ _ _ other present left leftBinds rest rightBinds ih
    by_cases tighter : power < p
    · exact renders_in_front operand token known
        (.binary other present left leftBinds rest rightBinds) (by simpa using tighter)
    · obtain ⟨inner, attached⟩ := ih
      have below : p ≤ looser power a := by
        cases a with
        | none => exact Nat.not_lt.mp tighter
        | some q => exact Nat.le_min.mpr ⟨Nat.not_lt.mp tighter, leftBinds q rfl⟩
      have level : looser power (some p) = p := Nat.min_eq_right (Nat.not_lt.mp tighter)
      rw [level]
      refine ⟨.binary op' inner right, ?_⟩
      simpa using Renders.binary other present attached (by simpa using below) rest rightBinds

/-- The rendering of some tree, as the grammar's categories ask for it. -/
def HasTree (table : OperatorTable) : Category → List Token → Prop
  | .operand, w => ∃ e : Node, Renders table (.expression e none) w
  | .expression, w => ∃ (e : Node) (loosest : Option Nat), Renders table (.expression e loosest) w
  | .arguments, w =>
    ∃ (first : Node) (args : List Node), Renders table (.arguments (first :: args)) w

theorem hasTree_of_derives {category : Category} {w : List Token}
    (derivation : Derives table category w) (wellFormed : ∀ t ∈ w, t.WellFormed) :
    HasTree table category w := by
  induction derivation with
  | @number t kind =>
    obtain ⟨x, token⟩ := (wellFormed t (by simp)).carries_number kind
    exact ⟨_, .number token⟩
  | @name t kind =>
    have token := (wellFormed t (by simp)).carries_text kind (by simp)
    exact ⟨_, .reference token⟩
  | @emptyCall t _ _ kind opens closes =>
    have token := (wellFormed t (by simp)).carries_text kind (by simp)
    exact ⟨_, .call token opens .noArguments closes⟩
  | @call t _ _ _ kind opens _ closes ih =>
    have token := (wellFormed t (by simp)).carries_text kind (by simp)
    obtain ⟨first, args, inner⟩ := ih fun s member => wellFormed s (by simp [member])
    exact ⟨_, .call token opens inner closes⟩
  | group opens _ closes ih =>
    obtain ⟨e, loosest, inner⟩ := ih fun s member => wellFormed s (by simp [member])
    exact ⟨e, .group opens inner closes⟩
  | single _ ih =>
    obtain ⟨e, rendering⟩ := ih wellFormed
    exact ⟨e, none, rendering⟩
  | @operation t _ _ _ _ kind known _ ihFirst ihRest =>
    have token := (wellFormed t (by simp)).carries_text kind (by simp)
    obtain ⟨first, operand⟩ := ihFirst fun s member => wellFormed s (by simp [member])
    obtain ⟨e, loosest, rendering⟩ := ihRest fun s member => wellFormed s (by simp [member])
    obtain ⟨e', attached⟩ := renders_attach operand token known rendering
    exact ⟨e', _, attached⟩
  | argument _ ih =>
    obtain ⟨e, loosest, only⟩ := ih wellFormed
    exact ⟨e, [], .argument only⟩
  | moreArguments _ kind _ ihFirst ihRest =>
    obtain ⟨e, loosest, first⟩ := ihFirst fun s member => wellFormed s (by simp [member])
    obtain ⟨next, args, rest⟩ := ihRest fun s member => wellFormed s (by simp [member])
    exact ⟨e, next :: args, .moreArguments first kind rest⟩

/-- What the grammar makes of a phrase; one that no operator leaves open is an operand. -/
def Derivable (table : OperatorTable) : Phrase → List Token → Prop
  | .expression _ loosest, w =>
    Derives table .expression w ∧ (loosest = none → Derives table .operand w)
  | .arguments args, w => args ≠ [] → Derives table .arguments w

theorem derivable_operand {e : Node} {w : List Token} (operand : Derives table .operand w) :
    Derivable table (.expression e none) w :=
  ⟨.single operand, fun _ => operand⟩

theorem derivable_of_renders {phrase : Phrase} {w : List Token}
    (rendering : Renders table phrase w) : Derivable table phrase w := by
  induction rendering with
  | number token => exact derivable_operand (.number token.1)
  | reference token => exact derivable_operand (.name token.1)
  | @call callee args t _ _ w token opens inner closes ih =>
    cases args with
    | nil =>
      cases inner
      exact derivable_operand (.emptyCall token.1 opens closes)
    | cons first rest => exact derivable_operand (.call token.1 opens (ih (by simp)) closes)
  | @binary op power _ _ _ _ t _ _ token known _ _ _ _ ihLeft ihRight =>
    refine ⟨derives_append ihLeft.1 token.1 (token.plain ▸ known) ihRight.1, ?_⟩
    intro none
    cases none
  | group opens _ closes ih => exact derivable_operand (.group opens ih.1 closes)
  | noArguments =>
    intro nonempty
    exact absurd rfl nonempty
  | argument _ ih =>
    intro _
    exact .argument ih.1
  | moreArguments _ kind _ ihFirst ihRest =>
    intro _
    exact .moreArguments ihFirst.1 kind (ihRest (by simp))

end Formulary
