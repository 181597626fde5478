import Formulary.Json.Text
import Formulary.Proofs.Number.Figure
import Mathlib.Data.List.Basic

/-!
The grammar of JSON texts, and what a text stands for. A number is the double nearest to its
decimal, and in a string an escape is the character it names, or half of one. A text stands for one
value at most. Records are values without the words for truth values and null.
-/
namespace Formulary

namespace Json

/-! ## White space -/

def isGap (c : Char) : Bool := c == ' ' || c == '\t' || c == '\n' || c == '\r'

/-- White space, perhaps none, and then the rest of a text. -/
inductive Skips : List Char → List Char → Prop where
  | nothing {rest : List Char} : Skips rest rest
  | gap {c : Char} {text rest : List Char} (gap : isGap c = true) (others : Skips text rest) :
    Skips (c :: text) rest

/-- A text does not begin with white space. -/
def Solid (text : List Char) : Prop := ∀ c ∈ text.head?, isGap c = false

theorem solid_cons {c : Char} (solid : isGap c = false) (text : List Char) : Solid (c :: text) := by
  intro d member
  obtain rfl := Option.some.inj member
  exact solid

theorem skips_unique {text rest rest' : List Char} (first : Skips text rest)
    (second : Skips text rest') (solid : Solid rest) (solid' : Solid rest') : rest = rest' := by
  induction first with
  | nothing =>
    cases second with
    | nothing => rfl
    | gap gap => exact absurd gap (by simp [solid _ rfl])
  | gap gap _ ih =>
    cases second with
    | nothing => exact absurd gap (by simp [solid' _ rfl])
    | gap _ others => exact ih others solid

/-- Behind white space there is one place for a mark. -/
theorem skips_mark_unique {c : Char} {text rest rest' : List Char} (first : Skips text (c :: rest))
    (second : Skips text (c :: rest')) (solid : isGap c = false) : rest = rest' := by
  have same := skips_unique first second (solid_cons solid rest) (solid_cons solid rest')
  exact (List.cons.inj same).2

/-- Behind white space a text ends, or one of these marks stands there. -/
def Before (marks : List Char) (text : List Char) : Prop :=
  ∃ ahead, Skips text ahead ∧ ∀ c ∈ ahead.head?, c ∈ marks

theorem before_of_mark {marks : List Char} {c : Char} {text rest : List Char}
    (skips : Skips text (c :: rest)) (mark : c ∈ marks) : Before marks text := by
  refine ⟨_, skips, fun d member => ?_⟩
  obtain rfl := Option.some.inj member
  exact mark

/-! ## Strings -/

def hexDigit? (c : Char) : Option Nat :=
  if c.isDigit then some (c.toNat - 48)
  else if 97 ≤ c.toNat ∧ c.toNat ≤ 102 then some (c.toNat - 87)
  else if 65 ≤ c.toNat ∧ c.toNat ≤ 70 then some (c.toNat - 55)
  else none

/-- The number that hexadecimal digits of either case stand for, behind one that stands before. -/
def hexFrom? (n : Nat) (ds : List Char) : Option Nat :=
  ds.foldlM (fun n c => (hexDigit? c).map (16 * n + ·)) n

/-- The characters with an escape of two characters, each behind its mark. -/
def shortEscapes : List (Char × Char) :=
  [('"', '"'), ('\\', '\\'), ('/', '/'), ('b', '\x08'), ('f', '\x0c'), ('n', '\n'), ('r', '\r'),
    ('t', '\t')]

/-- The character that a pair of surrogates stands for. -/
def pairCode (high low : Nat) : Nat := 0x10000 + (high - 0xd800) * 0x400 + (low - 0xdc00)

/-- The front of a text is a character within a string, as it is or escaped. -/
inductive ReadsChar : Char → List Char → List Char → Prop where
  | plain {c : Char} {rest : List Char} (printed : 0x20 ≤ c.toNat) (unquoted : c ≠ '"')
    (unescaped : c ≠ '\\') : ReadsChar c (c :: rest) rest
  | short {mark c : Char} {rest : List Char} (listed : (mark, c) ∈ shortEscapes) :
    ReadsChar c ('\\' :: mark :: rest) rest
  | unit {c x₁ x₂ x₃ x₄ : Char} {rest : List Char}
    (value : hexFrom? 0 [x₁, x₂, x₃, x₄] = some c.toNat) :
    ReadsChar c ('\\' :: 'u' :: x₁ :: x₂ :: x₃ :: x₄ :: rest) rest
  | pair {c x₁ x₂ x₃ x₄ y₁ y₂ y₃ y₄ : Char} {high low : Nat} {rest : List Char}
    (first : hexFrom? 0 [x₁, x₂, x₃, x₄] = some high) (isHigh : 0xd800 ≤ high ∧ high < 0xdc00)
    (second : hexFrom? 0 [y₁, y₂, y₃, y₄] = some low) (isLow : 0xdc00 ≤ low ∧ low < 0xe000)
    (code : c.toNat = pairCode high low) :
    ReadsChar c ('\\' :: 'u' :: x₁ :: x₂ :: x₃ :: x₄ :: '\\' :: 'u' :: y₁ :: y₂ :: y₃ :: y₄ :: rest)
      rest

/-- The characters of a string, and the quotation mark that closes it. -/
inductive ReadsString : List Char → List Char → List Char → Prop where
  | close {rest : List Char} : ReadsString [] ('"' :: rest) rest
  | char {c : Char} {cs text between rest : List Char} (first : ReadsChar c text between)
    (others : ReadsString cs between rest) : ReadsString (c :: cs) text rest

theorem shortEscapes_unique {mark c c' : Char} (listed : (mark, c) ∈ shortEscapes)
    (listed' : (mark, c') ∈ shortEscapes) : c = c' := by
  have all : ∀ p ∈ shortEscapes, ∀ q ∈ shortEscapes, p.1 = q.1 → p.2 = q.2 := by decide
  exact all _ listed _ listed' rfl

theorem shortEscapes_ne_u {c : Char} : ('u', c) ∉ shortEscapes := by
  have all : ∀ p ∈ shortEscapes, p.1 ≠ 'u' := by decide
  intro listed
  exact all _ listed rfl

theorem readsChar_unique {c c' : Char} {text rest rest' : List Char}
    (first : ReadsChar c text rest) (second : ReadsChar c' text rest') : c = c' ∧ rest = rest' := by
  cases first with
  | plain _ _ unescaped =>
    cases second with
    | plain => exact ⟨rfl, rfl⟩
    | _ => exact absurd rfl unescaped
  | short listed =>
    cases second with
    | plain _ _ unescaped => exact absurd rfl unescaped
    | short listed' => exact ⟨shortEscapes_unique listed listed', rfl⟩
    | _ => exact absurd listed shortEscapes_ne_u
  | unit value =>
    cases second with
    | plain _ _ unescaped => exact absurd rfl unescaped
    | short listed' => exact absurd listed' shortEscapes_ne_u
    | unit value' => exact ⟨Char.toNat_inj.mp (Option.some.inj (value.symm.trans value')), rfl⟩
    | pair first' isHigh =>
      have same := Option.some.inj (value.symm.trans first')
      have := not_surrogate c
      omega
  | pair first isHigh second' _ code =>
    cases second with
    | plain _ _ unescaped => exact absurd rfl unescaped
    | short listed' => exact absurd listed' shortEscapes_ne_u
    | unit value' =>
      have same := Option.some.inj (value'.symm.trans first)
      have := not_surrogate c'
      omega
    | pair high _ low _ code' =>
      obtain rfl := Option.some.inj (first.symm.trans high)
      obtain rfl := Option.some.inj (second'.symm.trans low)
      exact ⟨Char.toNat_inj.mp (code.trans code'.symm), rfl⟩

theorem readsString_unique {cs cs' text rest rest' : List Char} (first : ReadsString cs text rest)
    (second : ReadsString cs' text rest') : cs = cs' ∧ rest = rest' := by
  induction first generalizing cs' with
  | close =>
    cases second with
    | close => exact ⟨rfl, rfl⟩
    | char first' =>
      cases first' with
      | plain _ unquoted => exact absurd rfl unquoted
  | char first _ ih =>
    cases second with
    | close =>
      cases first with
      | plain _ unquoted => exact absurd rfl unquoted
    | char first' others' =>
      obtain ⟨rfl, rfl⟩ := readsChar_unique first first'
      obtain ⟨rfl, rfl⟩ := ih others'
      exact ⟨rfl, rfl⟩

/-! ## Values -/

/-- All that a text may stand for; an object keeps its fields in order. -/
inductive Value where
  | null
  | truth (holds : Bool)
  | text (s : String)
  | number (x : Binary64)
  | array (items : List Value)
  | object (fields : List (String × Value))

mutual

def toValue : Json → Value
  | .text s => .text s
  | .number x => .number x
  | .array items => .array (toValues items)
  | .object fields => .object (toFields fields)

def toValues : List Json → List Value
  | [] => []
  | item :: items => toValue item :: toValues items

def toFields : List (String × Json) → List (String × Value)
  | [] => []
  | (key, value) :: fields => (key, toValue value) :: toFields fields

end

mutual

theorem toValue_injective : ∀ v w : Json, v.toValue = w.toValue → v = w
  | .text s, w, same => by cases w <;> simp_all [toValue]
  | .number x, w, same => by cases w <;> simp_all [toValue]
  | .array items, w, same => by
    cases w with
    | array items' =>
      simp only [toValue, Value.array.injEq] at same
      rw [toValues_injective items items' same]
    | _ => simp [toValue] at same
  | .object fields, w, same => by
    cases w with
    | object fields' =>
      simp only [toValue, Value.object.injEq] at same
      rw [toFields_injective fields fields' same]
    | _ => simp [toValue] at same

theorem toValues_injective : ∀ items items' : List Json, toValues items = toValues items' →
    items = items'
  | [], items', same => by cases items' <;> simp_all [toValues]
  | item :: items, items', same => by
    cases items' with
    | nil => simp [toValues] at same
    | cons item' items' =>
      simp only [toValues, List.cons.injEq] at same
      rw [toValue_injective item item' same.1, toValues_injective items items' same.2]

theorem toFields_injective : ∀ fields fields' : List (String × Json),
    toFields fields = toFields fields' → fields = fields'
  | [], fields', same => by cases fields' <;> simp_all [toFields]
  | (key, value) :: fields, fields', same => by
    cases fields' with
    | nil => simp [toFields] at same
    | cons field' fields' =>
      simp only [toFields, List.cons.injEq, Prod.mk.injEq] at same
      obtain ⟨⟨keys, values⟩, others⟩ := same
      rw [keys, toValue_injective value field'.2 values, toFields_injective fields fields' others]

end

/-- What stands between commas: a value, with a key in front of it in an object. -/
inductive Entry where
  | item (value : Value)
  | field (key : String) (value : Value)

/-- What a stretch of text stands for. -/
inductive Part where
  | value (value : Value)
  | entry (entry : Entry)
  /-- All entries of an array or object. -/
  | entries (all : List Entry)
  /-- Those that a comma stands in front of. -/
  | more (others : List Entry)

/-- The front of a text stands for a part, and the rest is left. -/
inductive Reads : Part → List Char → List Char → Prop where
  | null {rest : List Char} : Reads (.value .null) ('n' :: 'u' :: 'l' :: 'l' :: rest) rest
  | yes {rest : List Char} : Reads (.value (.truth true)) ('t' :: 'r' :: 'u' :: 'e' :: rest) rest
  | no {rest : List Char} :
    Reads (.value (.truth false)) ('f' :: 'a' :: 'l' :: 's' :: 'e' :: rest) rest
  | text {s : String} {text rest : List Char} (chars : ReadsString s.toList text rest) :
    Reads (.value (.text s)) ('"' :: text) rest
  | number {f : Figure} {x : Binary64} {text rest : List Char} (value : f.value = x)
    (split : f.chars ++ rest = text) : Reads (.value (.number x)) text rest
  | array {items : List Value} {text between rest : List Char}
    (inside : Reads (.entries (items.map .item)) text between)
    (closed : Skips between (']' :: rest)) : Reads (.value (.array items)) ('[' :: text) rest
  | object {fields : List (String × Value)} {text between rest : List Char}
    (inside : Reads (.entries (fields.map fun field => .field field.1 field.2)) text between)
    (closed : Skips between ('\x7d' :: rest)) :
    Reads (.value (.object fields)) ('\x7b' :: text) rest
  | item {value : Value} {text between rest : List Char} (space : Skips text between)
    (own : Reads (.value value) between rest) : Reads (.entry (.item value)) text rest
  | field {key : String} {value : Value} {text name behind text' between rest : List Char}
    (space : Skips text ('"' :: name)) (chars : ReadsString key.toList name behind)
    (colon : Skips behind (':' :: text')) (space' : Skips text' between)
    (own : Reads (.value value) between rest) : Reads (.entry (.field key value)) text rest
  | none {rest : List Char} : Reads (.entries []) rest rest
  | first {e : Entry} {es : List Entry} {text between rest : List Char}
    (own : Reads (.entry e) text between) (others : Reads (.more es) between rest) :
    Reads (.entries (e :: es)) text rest
  | last {rest : List Char} : Reads (.more []) rest rest
  | next {e : Entry} {es : List Entry} {text text' between rest : List Char}
    (comma : Skips text (',' :: text')) (own : Reads (.entry e) text' between)
    (others : Reads (.more es) between rest) : Reads (.more (e :: es)) text rest

/-- A JSON text stands for a value, with white space around it. -/
def Denotes (text : List Char) (value : Value) : Prop :=
  ∃ rest, Reads (.entry (.item value)) text rest ∧ Skips rest []

namespace Part

/-- What may follow, behind white space. -/
def marks : Part → List Char
  | .value _ | .entry _ => [',', ']', '\x7d']
  | .entries _ | .more _ => [']', '\x7d']

/-- Parts that may stand in the same place. -/
def Alike : Part → Part → Prop
  | .value _, .value _ | .entry _, .entry _ | .entries _, .entries _ | .more _, .more _ => True
  | _, _ => False

theorem mem_marks (p : Part) {c : Char} (mark : c ∈ p.marks) : c = ',' ∨ c = ']' ∨ c = '\x7d' := by
  have wide : p.marks ⊆ [',', ']', '\x7d'] := by cases p <;> simp [marks]
  simpa using wide mark

theorem marks_apart (p : Part) {c : Char} (mark : c ∈ p.marks) :
    isGap c = false ∧ isFigureChar c = false := by
  rcases p.mem_marks mark with rfl | rfl | rfl <;> decide

end Part

/-- The first character of a value. -/
def opens (c : Char) : Bool := c ∈ ['n', 't', 'f', '"', '[', '\x7b', '-'] || c.isDigit

theorem opens_apart {c : Char} (begins : opens c = true) (p : Part) :
    isGap c = false ∧ c ∉ p.marks := by
  constructor
  · rw [← Bool.not_eq_true]
    intro gap
    simp only [isGap, Bool.or_eq_true, beq_iff_eq] at gap
    rcases gap with ((rfl | rfl) | rfl) | rfl <;> exact absurd begins (by decide)
  · intro mark
    rcases p.mem_marks mark with rfl | rfl | rfl <;> exact absurd begins (by decide)

section

variable {p p' : Part} {text rest rest' : List Char}

theorem before_head (before : Before p.marks rest) : ∀ c ∈ rest.head?, isFigureChar c = false := by
  obtain ⟨ahead, skips, head⟩ := before
  cases skips with
  | nothing => exact fun c member => (p.marks_apart (head c member)).2
  | @gap c _ _ gap =>
    intro d member
    obtain rfl := Option.some.inj member
    simp only [isGap, Bool.or_eq_true, beq_iff_eq] at gap
    rcases gap with ((rfl | rfl) | rfl) | rfl <;> decide

/-- The first character behind the white space is one of the marks. -/
theorem mem_of_before {c : Char} {tail : List Char} (before : Before p.marks text)
    (skips : Skips text (c :: tail)) (solid : isGap c = false) : c ∈ p.marks := by
  obtain ⟨ahead, skips', head⟩ := before
  have solid' : Solid ahead := fun d member => (p.marks_apart (head d member)).1
  obtain rfl := skips_unique skips skips' (solid_cons solid _) solid'
  exact head c rfl

theorem reads_head {v : Value} (reads : Reads (.value v) text rest) :
    ∃ c tail, text = c :: tail ∧ opens c = true := by
  cases reads with
  | @number f _ _ _ value split =>
    obtain ⟨c, cs, same, begins⟩ := f.chars_begins
    refine ⟨c, cs ++ rest, by rw [← split, same, List.cons_append], ?_⟩
    rcases begins with digit | rfl
    · simp [opens, digit]
    · decide
  | _ => exact ⟨_, _, rfl, by decide⟩

theorem solid_value {v : Value} (reads : Reads (.value v) text rest) : Solid text := by
  obtain ⟨c, tail, rfl, begins⟩ := reads_head reads
  exact solid_cons (opens_apart begins (.value v)).1 tail

/-- Where entries may end, no entry begins. -/
theorem not_before_entry {e : Entry} (reads : Reads (.entry e) text rest) :
    ¬ Before p.marks text := by
  intro before
  cases reads with
  | item space own =>
    obtain ⟨c, tail, rfl, begins⟩ := reads_head own
    exact (opens_apart begins p).2 (mem_of_before before space (opens_apart begins p).1)
  | field space =>
    exact (opens_apart (by decide) p).2 (mem_of_before before space (by decide))

theorem before_more {es : List Entry} (reads : Reads (.more es) text rest)
    (before : Before [']', '\x7d'] rest) : Before [',', ']', '\x7d'] text := by
  cases reads with
  | last =>
    obtain ⟨ahead, skips, head⟩ := before
    exact ⟨ahead, skips, fun c member => List.mem_cons_of_mem _ (head c member)⟩
  | next comma => exact before_of_mark comma (by simp)

theorem figure_head {f : Figure} {c : Char} (split : f.chars ++ rest = c :: text) :
    c.isDigit = true ∨ c = '-' := by
  obtain ⟨d, cs, same, begins⟩ := f.chars_begins
  rw [same] at split
  rwa [← (List.cons.inj split).1]

/-- A string that a colon stands behind is no item. -/
theorem not_before_key {v : Value} {cs name tail : List Char} {between after : List Char}
    (space : Skips text between) (own : Reads (.value v) between rest)
    (space' : Skips text ('"' :: name)) (chars : ReadsString cs name after)
    (colon : Skips after (':' :: tail)) : ¬ Before p.marks rest := by
  intro before
  obtain rfl := skips_unique space space' (solid_value own) (solid_cons (by decide) _)
  cases own with
  | text chars' =>
    obtain ⟨_, rfl⟩ := readsString_unique chars chars'
    have member := mem_of_before before colon (by decide)
    cases p <;> revert member <;> simp only [Part.marks] <;> decide
  | number _ split => exact absurd (figure_head split) (by decide)

theorem figure_unique {f g : Figure} (same : f.chars ++ rest = g.chars ++ rest')
    (stops : ∀ c ∈ rest.head?, isFigureChar c = false)
    (stops' : ∀ c ∈ rest'.head?, isFigureChar c = false) : f.value = g.value ∧ rest = rest' := by
  have front := takeWhile_of_break f.chars_inside stops
  have back := dropWhile_of_break f.chars_inside stops
  rw [same, takeWhile_of_break g.chars_inside stops'] at front
  rw [same, dropWhile_of_break g.chars_inside stops'] at back
  have value := f.read_chars
  rw [← front, g.read_chars] at value
  exact ⟨(Option.some.inj value).symm, back.symm⟩

end

theorem item_injective : Function.Injective Entry.item := fun _ _ => Entry.item.inj

theorem field_injective :
    Function.Injective fun field : String × Value => Entry.field field.1 field.2 :=
  fun _ _ same => Prod.ext (Entry.field.inj same).1 (Entry.field.inj same).2

/-- The front of a text is read in one way only, if what is left cannot carry it on. -/
theorem reads_unique {p p' : Part} {text rest rest' : List Char} (first : Reads p text rest)
    (second : Reads p' text rest') (alike : p.Alike p') (before : Before p.marks rest)
    (before' : Before p'.marks rest') : p = p' ∧ rest = rest' := by
  -- What is left begins with a mark, so that no number can take more of the text, and where entries
  -- end none can begin. The first character settles all other parts.
  induction first generalizing p' rest' with
  | null =>
    cases second with
    | null => exact ⟨rfl, rfl⟩
    | number _ split => exact absurd (figure_head split) (by decide)
    | _ => cases alike
  | yes =>
    cases second with
    | yes => exact ⟨rfl, rfl⟩
    | number _ split => exact absurd (figure_head split) (by decide)
    | _ => cases alike
  | no =>
    cases second with
    | no => exact ⟨rfl, rfl⟩
    | number _ split => exact absurd (figure_head split) (by decide)
    | _ => cases alike
  | text chars =>
    cases second with
    | text chars' =>
      obtain ⟨same, rfl⟩ := readsString_unique chars chars'
      rw [String.toList_inj.mp same]
      exact ⟨rfl, rfl⟩
    | number _ split => exact absurd (figure_head split) (by decide)
    | _ => cases alike
  | number value split =>
    cases second with
    | number value' split' =>
      obtain ⟨same, rfl⟩ := figure_unique (split.trans split'.symm) (before_head before)
        (before_head before')
      rw [← value, ← value', same]
      exact ⟨rfl, rfl⟩
    | item | field | none | first | last | next => cases alike
    | _ => exact absurd (figure_head split) (by decide)
  | array _ closed ih =>
    cases second with
    | array inside' closed' =>
      obtain ⟨same, rfl⟩ := ih inside' trivial (before_of_mark closed (by simp [Part.marks]))
        (before_of_mark closed' (by simp [Part.marks]))
      rw [item_injective.list_map (Part.entries.inj same)]
      exact ⟨rfl, skips_mark_unique closed closed' (by decide)⟩
    | number _ split => exact absurd (figure_head split) (by decide)
    | _ => cases alike
  | object _ closed ih =>
    cases second with
    | object inside' closed' =>
      obtain ⟨same, rfl⟩ := ih inside' trivial (before_of_mark closed (by simp [Part.marks]))
        (before_of_mark closed' (by simp [Part.marks]))
      rw [field_injective.list_map (Part.entries.inj same)]
      exact ⟨rfl, skips_mark_unique closed closed' (by decide)⟩
    | number _ split => exact absurd (figure_head split) (by decide)
    | _ => cases alike
  | item space own ih =>
    cases second with
    | item space' own' =>
      obtain rfl := skips_unique space space' (solid_value own) (solid_value own')
      obtain ⟨same, rfl⟩ := ih own' trivial before before'
      obtain rfl := Part.value.inj same
      exact ⟨rfl, rfl⟩
    | field space' chars colon => exact absurd before (not_before_key space own space' chars colon)
    | _ => cases alike
  | field space chars colon behind own ih =>
    cases second with
    | item space' own' => exact absurd before' (not_before_key space' own' space chars colon)
    | field space' chars' colon' behind' own' =>
      obtain rfl := skips_mark_unique space space' (by decide)
      obtain ⟨key, rfl⟩ := readsString_unique chars chars'
      obtain rfl := skips_mark_unique colon colon' (by decide)
      obtain rfl := skips_unique behind behind' (solid_value own) (solid_value own')
      obtain ⟨same, rfl⟩ := ih own' trivial before before'
      rw [String.toList_inj.mp key, Part.value.inj same]
      exact ⟨rfl, rfl⟩
    | _ => cases alike
  | none =>
    cases second with
    | none => exact ⟨rfl, rfl⟩
    | first own' => exact absurd before (not_before_entry own')
    | _ => cases alike
  | first own others ihOwn ihOthers =>
    cases second with
    | none => exact absurd before' (not_before_entry own)
    | first own' others' =>
      obtain ⟨same, rfl⟩ := ihOwn own' trivial (before_more others before)
        (before_more others' before')
      obtain ⟨sames, rfl⟩ := ihOthers others' trivial before before'
      rw [Part.entry.inj same, Part.more.inj sames]
      exact ⟨rfl, rfl⟩
    | _ => cases alike
  | last =>
    cases second with
    | last => exact ⟨rfl, rfl⟩
    | next comma => exact absurd (mem_of_before before comma (by decide)) (by decide)
    | _ => cases alike
  | next comma own others ihOwn ihOthers =>
    cases second with
    | last => exact absurd (mem_of_before before' comma (by decide)) (by decide)
    | next comma' own' others' =>
      obtain rfl := skips_mark_unique comma comma' (by decide)
      obtain ⟨same, rfl⟩ := ihOwn own' trivial (before_more others before)
        (before_more others' before')
      obtain ⟨sames, rfl⟩ := ihOthers others' trivial before before'
      rw [Part.entry.inj same, Part.more.inj sames]
      exact ⟨rfl, rfl⟩
    | _ => cases alike

/-- A text stands for one value at most. -/
theorem denotes_unique {text : List Char} {v w : Value} (first : Denotes text v)
    (second : Denotes text w) : v = w := by
  obtain ⟨rest, reads, ends⟩ := first
  obtain ⟨rest', reads', ends'⟩ := second
  obtain ⟨same, _⟩ := reads_unique reads reads' trivial ⟨[], ends, by simp⟩ ⟨[], ends', by simp⟩
  exact Entry.item.inj (Part.entry.inj same)

end Json

end Formulary
