import Formulary.Parse.Expression
import Formulary.Parse.Prototype
import Formulary.Source.Cursor

/-!
Items and programs. An item is a declaration, a definition or a bare expression; a program is
items and semicolons in any order. Nothing has to stand between two items: an item ends where it
cannot go on, and the token that ended it begins what follows.
-/
namespace Formulary

/-- How far an item has been read, after the word that begins it. -/
inductive ItemReading where
  /-- In the prototype of a declaration. -/
  | declaration (r : PrototypeReading)
  /-- In the prototype of a definition. -/
  | definition (r : PrototypeReading)
  /-- In the body of a definition. -/
  | body (p : Prototype) (r : Reading)
  deriving Repr

namespace Move

variable {σ τ ε η α β : Type}

/-- The move of a machine that stands inside another one: what it does where the inner machine
finishes is given. -/
def within (state : σ → τ) (fault : ε → η) (finished : α → Move τ η β) :
    Move σ ε α → Move τ η β
  | .shift s => .shift (state s)
  | .finish a => finished a
  | .refuse e => .refuse (fault e)
  | .spoil e => .spoil (fault e)

end Move

namespace ItemReading

/-- The state before a bare expression. -/
def bare : ItemReading := .body .anonymous Expression.start

/-- Expressions in items take every operator of the table. -/
def bound : Bound := .atLeast 0

def stepBody (table : OperatorTable) (p : Prototype) (r : Reading) (t : Token) :
    Move ItemReading Fault Node :=
  (Expression.step table bound r t).within (.body p) id fun e =>
    .finish (.definition (.prototype p) e)

def step (table : OperatorTable) (r : ItemReading) (t : Token) : Move ItemReading Fault Node :=
  match r with
  | .declaration r => (r.step t).within .declaration id fun p =>
      .finish (.declaration (.prototype p))
  | .definition r => (r.step t).within .definition id fun p => stepBody table p Expression.start t
  | .body p r => stepBody table p r t

def atEnd : ItemReading → Except Fault Node
  | .declaration r => r.atEnd.map fun p => .declaration (.prototype p)
  | .definition _ => .error .unexpectedEnd
  | .body p r => (Expression.atEnd r).map (.definition (.prototype p))

def machine (table : OperatorTable) : Machine ItemReading Fault Node := ⟨step table, atEnd⟩

end ItemReading

/-- The items read so far, last first, and the one that is being read. -/
structure ProgramReading where
  items : List Node
  current : Option ItemReading
  deriving Repr

/-- A fault, and the items that had been read before it. -/
structure ProgramFault where
  items : List Node
  fault : Fault
  deriving Repr

namespace ProgramReading

def start : ProgramReading := ⟨[], none⟩

/-- The move on a token inside an item; what follows the item is given. -/
def stepItem (table : OperatorTable) (items : List Node) (r : ItemReading) (t : Token)
    (next : Node → Move ProgramReading ProgramFault (List Node)) :
    Move ProgramReading ProgramFault (List Node) :=
  (r.step table t).within (⟨items, some ·⟩) (⟨items.reverse, ·⟩) next

/-- The move on a token that stands between two items. A bare expression takes its first token or
refuses it, and so is never finished here. -/
def begin (table : OperatorTable) (items : List Node) (t : Token) :
    Move ProgramReading ProgramFault (List Node) :=
  match t.kind with
  | .definition => .shift ⟨items, some (.definition .start)⟩
  | .declaration => .shift ⟨items, some (.declaration .start)⟩
  | .separator => .shift ⟨items, none⟩
  | _ => stepItem table items .bare t fun item => .finish (item :: items).reverse

def step (table : OperatorTable) (r : ProgramReading) (t : Token) :
    Move ProgramReading ProgramFault (List Node) :=
  match r.current with
  | none => begin table r.items t
  | some item => stepItem table r.items item t fun node => begin table (node :: r.items) t

def atEnd (r : ProgramReading) : Except ProgramFault (List Node) :=
  match r.current with
  | none => .ok r.items.reverse
  | some item => match item.atEnd with
    | .ok node => .ok (node :: r.items).reverse
    | .error fault => .error ⟨r.items.reverse, fault⟩

def machine (table : OperatorTable) : Machine ProgramReading ProgramFault (List Node) :=
  ⟨step table, atEnd⟩

end ProgramReading

/-- The items of a token list. -/
def parseTokens (table : OperatorTable) (tokens : List Token) :
    Except ProgramFault (List Node) × List Token :=
  (ProgramReading.machine table).run .start tokens

/-- The items of a source text. -/
def parseSource (table : OperatorTable) (source : String) : Except Fault (List Node) :=
  (parseTokens table (tokenize source)).1.mapError (·.fault)

section

variable {table : OperatorTable} {source : String}

theorem parseSource_eq_ok_iff {nodes : List Node} : parseSource table source = .ok nodes ↔
    (parseTokens table (tokenize source)).1 = .ok nodes := by
  unfold parseSource
  cases (parseTokens table (tokenize source)).1 with
  | error e => exact ⟨nofun, nofun⟩
  | ok found =>
    constructor
    · exact fun same => congrArg Except.ok (Except.ok.inj same)
    · exact fun same => congrArg Except.ok (Except.ok.inj same)

theorem parseSource_eq_error_iff {fault : Fault} : parseSource table source = .error fault ↔
    ∃ e, (parseTokens table (tokenize source)).1 = .error e ∧ e.fault = fault := by
  unfold parseSource
  cases (parseTokens table (tokenize source)).1 with
  | error e =>
    constructor
    · exact fun same => ⟨e, rfl, Except.error.inj same⟩
    · rintro ⟨_, same, rfl⟩
      rw [Except.error.inj same]
      rfl
  | ok found =>
    constructor
    · exact nofun
    · rintro ⟨_, same, _⟩
      cases same

end

end Formulary
