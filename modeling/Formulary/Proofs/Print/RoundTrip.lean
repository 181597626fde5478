import Formulary.Proofs.Parse.Exact
import Formulary.Proofs.Print.Kept
import Formulary.Proofs.Print.Printable

/-!
Printing and reading back. Every printable program has a text, a line for each of its items, and
the text reads back as the program under every table that has its operators.
-/
namespace Formulary

variable {table : OperatorTable}

namespace Node

theorem spells_operand {e : Node} {text : String} (plain : e.isBinary = false)
    (spells : Spells text.toList (Renders table (.expression e none))) :
    Spells text.toList (Renders.Some table e) ∧
      Spells (e.enclosed text).toList (Renders table (.expression e none)) := by
  refine ⟨spells_mono spells fun _ rendering => ⟨none, rendering⟩, ?_⟩
  simpa [enclosed, plain] using spells

theorem spells_call {callee inner : String} {args : List Node} (word : isName callee = true)
    (spells : Spells inner.toList (Renders table (.arguments args))) :
    Spells (callee ++ "(" ++ inner ++ ")").toList
      (Renders table (.expression (.call callee args) none)) := by
  have whole := spells_front (spells_name word) (spells_enclosed spells) (by decide) (by decide)
  have same : (callee ++ "(" ++ inner ++ ")").toList =
      callee.toList ++ '(' :: (inner.toList ++ [')']) := by simp
  rw [same]
  refine spells_mono whole ?_
  rintro _ ⟨t, _, rfl, token, opening, v, closing, rfl, opens, rendering, closes⟩
  exact .call token opens rendering closes

theorem spells_group {e : Node} {text : String} (spells : Spells text.toList (Renders.Some table e)) :
    Spells ("(" ++ text ++ ")").toList (Renders table (.expression e none)) := by
  have same : ("(" ++ text ++ ")").toList = '(' :: (text.toList ++ [')']) := by simp
  rw [same]
  refine spells_mono (spells_enclosed spells) ?_
  rintro _ ⟨opening, v, closing, rfl, opens, ⟨_, rendering⟩, closes⟩
  exact .group opens rendering closes

theorem spells_binary {op first second : String} {left right : Node}
    (accepted : (OperatorTable.checkSymbol (.text op)).isOk = true)
    (known : (table.powerOf? op).isSome = true)
    (front : Spells first.toList (Renders table (.expression left none)))
    (back : Spells second.toList (Renders table (.expression right none))) :
    Spells (first ++ " " ++ op ++ " " ++ second).toList
      (Renders.Some table (.binary op left right)) := by
  obtain ⟨power, known⟩ := Option.isSome_iff_exists.mp known
  have behind := spells_space (spells_operator accepted (spells_space back))
  have whole := spells_append front behind (by decide) (by decide)
  have same : (first ++ " " ++ op ++ " " ++ second).toList =
      first.toList ++ ' ' :: (op.toList ++ ' ' :: second.toList) := by simp
  rw [same]
  refine spells_mono whole ?_
  rintro _ ⟨v, _, rfl, leftRendering, t, w, rfl, token, rightRendering⟩
  exact ⟨some power, .binary token known leftRendering (by simp) rightRendering (by simp)⟩

theorem spells_arguments {args : List Node} {texts : List String}
    (each : List.Forall₂ (fun e text => Spells text.toList (Renders.Some table e)) args texts) :
    Spells (commaJoined texts).toList (Renders table (.arguments args)) := by
  refine spells_commas (fun args => Renders table (.arguments args)) .noArguments ?_ ?_ each
  · rintro e w ⟨_, rendering⟩
    exact .argument rendering
  · rintro e next others v comma w ⟨_, rendering⟩ kind rest
    exact .moreArguments rendering kind rest

mutual

theorem spells_source : ∀ e : Node, e.printable = true →
    (∀ op ∈ e.operators, (table.powerOf? op).isSome = true) → ∃ text, e.source = .ok text ∧
      Spells text.toList (Renders.Some table e) ∧
      Spells (e.enclosed text).toList (Renders table (.expression e none))
  | .literal (.finite negative code), printable, _ => by
    obtain rfl : negative = false := by simpa [Node.printable] using printable
    refine ⟨_, rfl, spells_operand rfl ?_⟩
    rw [String.toList_ofList]
    refine spells_mono (spells_number code) ?_
    rintro _ ⟨t, _, rfl, token, rfl⟩
    exact .number token
  | .reference name, printable, _ => by
    refine ⟨name, rfl, spells_operand rfl ?_⟩
    refine spells_mono (spells_name printable) ?_
    rintro _ ⟨t, _, rfl, token, rfl⟩
    exact .reference token
  | .binary op left right, printable, known => by
    simp only [Node.printable, Bool.and_eq_true] at printable
    simp only [operators, List.forall_mem_cons, List.forall_mem_append] at known
    obtain ⟨⟨accepted, first⟩, second⟩ := printable
    obtain ⟨leftText, leftSource, _, leftSpells⟩ := spells_source left first known.2.1
    obtain ⟨rightText, rightSource, _, rightSpells⟩ := spells_source right second known.2.2
    have spells := spells_binary accepted known.1 leftSpells rightSpells
    refine ⟨_, ?_, spells, spells_group spells⟩
    simp only [source, leftSource, rightSource]
    rfl
  | .call callee args, printable, known => by
    simp only [Node.printable, Bool.and_eq_true] at printable
    obtain ⟨texts, written, each⟩ := spells_sources args printable.2 known
    refine ⟨_, ?_, spells_operand rfl (spells_call printable.1 (spells_arguments each))⟩
    simp only [source, written]
    rfl

theorem spells_sources : ∀ args : List Node, printableAll args = true →
    (∀ op ∈ operatorsAll args, (table.powerOf? op).isSome = true) →
      ∃ texts, sources args = .ok texts ∧
        List.Forall₂ (fun e text => Spells text.toList (Renders.Some table e)) args texts
  | [], _, _ => ⟨[], rfl, .nil⟩
  | e :: args, printable, known => by
    simp only [printableAll, Bool.and_eq_true] at printable
    simp only [operatorsAll, List.forall_mem_append] at known
    obtain ⟨text, written, spells, _⟩ := spells_source e printable.1 known.1
    obtain ⟨texts, others, each⟩ := spells_sources args printable.2 known.2
    refine ⟨text :: texts, ?_, .cons spells each⟩
    simp only [sources, written, others]
    rfl

end

end Node

theorem spells_prototype {p : Prototype} (printable : p.printable = true) :
    Spells p.source.toList (RendersPrototype p) := by
  simp only [Prototype.printable, Bool.and_eq_true, List.all_eq_true] at printable
  obtain ⟨named, params⟩ := printable
  have each : List.Forall₂ (fun name text => Spells text.toList
      (Leads .name (.text name) (· = []))) p.params p.params :=
    List.forall₂_same.mpr fun name member => spells_name (params name member)
  have inner : Spells (commaJoined p.params).toList (RendersParams p.params) := by
    refine spells_commas RendersParams .none ?_ ?_ each
    · rintro name _ ⟨t, _, rfl, token, rfl⟩
      exact .one token
    · rintro name next others _ comma w ⟨t, _, rfl, token, rfl⟩ kind rest
      exact .more token kind rest
  have whole := spells_front (spells_name named) (spells_enclosed inner) (by decide) (by decide)
  have same : p.source.toList =
      p.name.toList ++ '(' :: ((commaJoined p.params).toList ++ [')']) := by
    simp [Prototype.source]
  rw [same]
  refine spells_mono whole ?_
  rintro _ ⟨t, _, rfl, token, opening, v, closing, rfl, opens, rendering, closes⟩
  exact .mk token opens rendering closes

theorem spells_reserved (word : String) {text : List Char} {means : List Token → Prop}
    {kind : TokenKind} {c : Char} {cs : List Char} (same : word.toList = c :: cs)
    (start : isWordStart c = true) (inside : cs.all isWordChar = true)
    (reserved : wordKind word = kind) (spells : Spells text means) :
    Spells (word.toList ++ ' ' :: text) (Leads kind (.text word) means) := by
  have front := spells_word start (List.all_eq_true.mp inside)
  rw [← same, String.ofList_toList, reserved] at front
  exact spells_front front (spells_space spells) (by decide) (by decide)

/-- An item and the semicolon that ends its line. -/
def Terminated (table : OperatorTable) (node : Node) (w : List Token) : Prop :=
  ∃ (v : List Token) (t : Token), w = v ++ [t] ∧ t.kind = .separator ∧ RendersItem table node v

theorem spells_terminated {node : Node} {text : List Char}
    (spells : Spells text (RendersItem table node)) :
    Spells (text ++ [';']) (Terminated table node) := by
  have ends := spells_mark ';' .separator rfl spells_nil
  refine spells_mono (spells_append spells ends (by decide) (by decide)) ?_
  rintro _ ⟨v, _, rfl, rendering, t, _, rfl, token, rfl⟩
  exact ⟨v, t, rfl, token.1, rendering⟩

theorem spells_declaration {p : Prototype} (printable : p.printable = true) :
    Spells ("extern " ++ p.source).toList (RendersItem table (.declaration (.prototype p))) := by
  have spells := spells_reserved "extern" rfl (by decide) (by decide) rfl
    (spells_prototype printable)
  have same : ("extern " ++ p.source).toList = "extern".toList ++ ' ' :: p.source.toList := by simp
  rw [same]
  refine spells_mono spells ?_
  rintro _ ⟨t, v, rfl, token, rendering⟩
  exact .declaration token.1 rendering

theorem spells_definition {p : Prototype} {e : Node} {text : String}
    (printable : p.printable = true) (spells : Spells text.toList (Renders.Some table e)) :
    Spells ("def " ++ p.source ++ " " ++ text).toList
      (RendersItem table (.definition (.prototype p) e)) := by
  have named : p.name ≠ "" := by
    simp only [Prototype.printable, Bool.and_eq_true] at printable
    obtain ⟨c, cs, same, _⟩ := isName_iff.mp printable.1
    simp [same]
  have inner := spells_append (spells_prototype printable) (spells_space spells) (by decide)
    (by decide)
  have whole := spells_reserved "def" rfl (by decide) (by decide) rfl inner
  have same : ("def " ++ p.source ++ " " ++ text).toList =
      "def".toList ++ ' ' :: (p.source.toList ++ ' ' :: text.toList) := by simp
  rw [same]
  refine spells_mono whole ?_
  rintro _ ⟨t, _, rfl, token, v, w, rfl, signature, _, body⟩
  exact .definition token.1 named signature body

theorem printableItem_cases {node : Node} (printable : node.printableItem = true) :
    (∃ p : Prototype, node = .declaration (.prototype p) ∧ p.printable = true) ∨
      ∃ (p : Prototype) (body : Node), node = .definition (.prototype p) body ∧
        (p = .anonymous ∨ p.printable = true) ∧ body.printable = true := by
  unfold Node.printableItem at printable
  split at printable
  · next p => exact .inl ⟨p, rfl, printable⟩
  · next p body =>
    simp only [Bool.and_eq_true, Bool.or_eq_true, beq_iff_eq] at printable
    exact .inr ⟨p, body, rfl, printable⟩
  · cases printable

/-- The line of an item, and what is made of it where it is emitted. -/
structure Node.HasLine (table : OperatorTable) (node : Node) (line : String) : Prop where
  item : node.isItem = true
  emitted : Emitter.source.Makes node (.ok line)
  nonempty : line ≠ ""
  spells : Spells line.toList (Terminated table node)

theorem hasLine_of_spells {node : Node} {text : String} (item : node.isItem = true)
    (emitted : Emitter.source.Makes node (.ok (text ++ ";")))
    (spells : Spells text.toList (RendersItem table node)) : node.HasLine table (text ++ ";") := by
  refine ⟨item, emitted, by simp, ?_⟩
  have same : (text ++ ";").toList = text.toList ++ [';'] := by simp
  rw [same]
  exact spells_terminated spells

theorem hasLine_of_printable {node : Node} (printable : node.printableItem = true)
    (known : ∀ op ∈ node.operators, (table.powerOf? op).isSome = true) :
    ∃ line, node.HasLine table line := by
  rcases printableItem_cases printable with ⟨p, rfl, signature⟩ | ⟨p, body, rfl, signature, inside⟩
  · exact ⟨_, hasLine_of_spells rfl (fun _ => rfl) (spells_declaration signature)⟩
  · obtain ⟨text, written, spells, _⟩ := Node.spells_source body inside known
    by_cases anonymous : p = .anonymous
    · subst anonymous
      refine ⟨text ++ ";", hasLine_of_spells rfl ?_ ?_⟩
      · intro kept
        simp only [Emitter.emitNode, Emitter.source, definitionLine, written]
        rfl
      · refine spells_mono spells ?_
        rintro w ⟨_, rendering⟩
        exact .bare rendering
    · have signature := signature.resolve_left anonymous
      refine ⟨_, hasLine_of_spells rfl ?_ (spells_definition signature spells)⟩
      intro kept
      have named : (p == .anonymous) = false := by simp [anonymous]
      simp only [Emitter.emitNode, Emitter.source, definitionLine, written, Node.isAnonymous, named]
      rfl

theorem lists_cons {node : Node} {nodes : List Node} {v w : List Token}
    (first : Terminated table node v) (rest : Lists table nodes w) :
    Lists table (node :: nodes) (v ++ w) := by
  obtain ⟨u, t, rfl, kind, item⟩ := first
  have apart : Follows u (t :: w) := by
    intro s member
    obtain rfl := Option.some.inj member
    simp [kind]
  rw [List.append_assoc]
  exact .item item apart (.separator kind rest)

theorem scans_of_line {node : Node} {line : String} (printed : node.HasLine table line) :
    Scans line.toList (Lists table [node]) := by
  refine scans_mono printed.spells.scans ?_
  intro w terminated
  simpa using lists_cons terminated .nil

theorem scans_lines {nodes : List Node} {lines : List String}
    (each : List.Forall₂ (Node.HasLine table) nodes lines) :
    Scans (String.intercalate "\n" lines).toList (Lists table nodes) := by
  induction each with
  | nil =>
    refine scans_mono scans_nil ?_
    rintro _ rfl
    exact .nil
  | @cons node line nodes lines first rest ih =>
    cases rest with
    | nil => simpa using scans_of_line first
    | @cons _ next _ others _ _ =>
      have behind := scans_blank (c := '\n') (by decide) ih
      have joined := scans_append first.spells.scans behind
        fun rest _ => breaks_cons (by decide) (by decide) _
      have same : (String.intercalate "\n" (line :: next :: others)).toList =
          line.toList ++ '\n' :: (String.intercalate "\n" (next :: others)).toList := by
        simp [String.intercalate_cons_cons]
      rw [same]
      refine scans_mono joined ?_
      rintro _ ⟨v, w, rfl, terminated, listing⟩
      exact lists_cons terminated listing

theorem parse_of_scans {nodes : List Node} {text : String}
    (scans : Scans text.toList (Lists table nodes)) (plain : commentMark ∉ text.toList) :
    parseSource table text = .ok nodes := by
  have listing := tokenize_of_scans scans plain
  rw [String.ofList_toList] at listing
  rw [parseSource, parse_of_lists listing]
  rfl

theorem transpile_lines {nodes : List Node} {lines : List String}
    (each : List.Forall₂ (Node.HasLine table) nodes lines) :
    Target.source.transpile nodes = .ok (String.intercalate "\n" lines) := by
  have items : ∀ node ∈ nodes, node.isItem = true := by
    induction each with
    | nil => simp
    | cons first _ ih => exact List.forall_mem_cons.mpr ⟨first.item, ih⟩
  have makes : Emitter.source.MakeAll nodes lines := each.imp fun _ _ printed => printed.emitted
  simp only [Target.transpile, Emitter.transpile, Emitter.checkItems_of_items 0 items,
    Emitter.emitAll_of_makeAll makes]
  rfl

/-- The lines of a text; the empty text has none. -/
def textLines (text : String) : List String :=
  if text = "" then [] else (text.toList.splitOn '\n').map String.ofList

theorem textLines_intercalate {lines : List String} (nonempty : ∀ line ∈ lines, line ≠ "")
    (inline : ∀ line ∈ lines, '\n' ∉ line.toList) :
    textLines (String.intercalate "\n" lines) = lines := by
  cases lines with
  | nil => simp [textLines]
  | cons line lines =>
    have pieces : (String.intercalate "\n" (line :: lines)).toList.splitOn '\n' =
        (line :: lines).map String.toList := by
      rw [String.toList_intercalate]
      exact List.splitOn_intercalate '\n' (by simpa using inline) (by simp)
    have some : String.intercalate "\n" (line :: lines) ≠ "" := by
      intro empty
      rw [empty] at pieces
      have first := nonempty line (by simp)
      simp_all
    rw [textLines, if_neg some, pieces, List.map_map]
    simp [Function.comp_def]

theorem plain_lines {nodes : List Node} {lines : List String}
    (each : List.Forall₂ (Node.HasLine table) nodes lines) :
    ∀ line ∈ lines, line ≠ "" ∧ ∀ c ∈ line.toList, isPlain c = true := by
  induction each with
  | nil => simp
  | cons first _ ih => exact List.forall_mem_cons.mpr ⟨⟨first.nonempty, first.spells.plain⟩, ih⟩

theorem uncommented_of_plain {text : List Char} (plain : ∀ c ∈ text, isPlain c = true) :
    commentMark ∉ text := by
  intro member
  have only := plain commentMark member
  simp [isPlain] at only

theorem uncommented_lines {lines : List String}
    (plain : ∀ line ∈ lines, ∀ c ∈ line.toList, isPlain c = true) :
    commentMark ∉ (String.intercalate "\n" lines).toList := by
  induction lines with
  | nil => simp
  | cons line lines ih =>
    obtain ⟨first, rest⟩ := List.forall_mem_cons.mp plain
    have own := uncommented_of_plain first
    cases lines with
    | nil => simpa using own
    | cons next others =>
      have later := ih rest
      rw [String.intercalate_cons_cons]
      simp only [String.toList_append, List.mem_append, not_or]
      exact ⟨⟨own, by decide⟩, later⟩

theorem parse_line {node : Node} {line : String} (printed : node.HasLine table line) :
    parseSource table line = .ok [node] :=
  parse_of_scans (scans_of_line printed) (uncommented_of_plain printed.spells.plain)

theorem parse_lines {nodes : List Node} {lines : List String}
    (each : List.Forall₂ (Node.HasLine table) nodes lines) :
    List.Forall₂ (fun line node => parseSource table line = .ok [node]) lines nodes := by
  induction each with
  | nil => exact .nil
  | cons first _ ih => exact .cons (parse_line first) ih

theorem hasLines_of_printable {program : List Node}
    (printable : ∀ node ∈ program, node.printableItem = true)
    (known : ∀ node ∈ program, ∀ op ∈ node.operators, (table.powerOf? op).isSome = true) :
    ∃ lines, List.Forall₂ (Node.HasLine table) program lines := by
  induction program with
  | nil => exact ⟨[], .nil⟩
  | cons node program ih =>
    simp only [List.forall_mem_cons] at printable known
    obtain ⟨line, first⟩ := hasLine_of_printable printable.1 known.1
    obtain ⟨lines, rest⟩ := ih printable.2 known.2
    exact ⟨line :: lines, .cons first rest⟩

/-- A printable program reads back from its text under every table that has its operators, and
each of its items from its own line. -/
theorem parse_transpile (table : OperatorTable) (program : List Node)
    (printable : ∀ node ∈ program, node.printableItem = true)
    (known : ∀ node ∈ program, ∀ op ∈ node.operators, (table.powerOf? op).isSome = true) :
    ∃ text, Target.source.transpile program = .ok text ∧ parseSource table text = .ok program ∧
      List.Forall₂ (fun line node => parseSource table line = .ok [node]) (textLines text) program ∧
      ∀ line ∈ textLines text, ∀ c ∈ line.toList, isBlank c = true → c = ' ' := by
  obtain ⟨lines, each⟩ := hasLines_of_printable printable known
  have plain := plain_lines each
  have apart (line : String) (member : line ∈ lines) (c : Char) (inside : c ∈ line.toList)
      (blank : isBlank c = true) : c = ' ' := by
    have only := (plain line member).2 c inside
    simp_all [isPlain]
  have split : textLines (String.intercalate "\n" lines) = lines := by
    refine textLines_intercalate (fun line member => (plain line member).1) ?_
    intro line member inside
    exact absurd (apart line member '\n' inside (by decide)) (by decide)
  refine ⟨String.intercalate "\n" lines, transpile_lines each, ?_, ?_, ?_⟩
  · exact parse_of_scans (scans_lines each) (uncommented_lines fun line member =>
      (plain line member).2)
  · rw [split]
    exact parse_lines each
  · rw [split]
    exact apart

theorem parse_transpile_dots :
    let table : OperatorTable := ⟨[⟨'.', 7, by decide⟩]⟩
    let program : List Node := [.declaration (.prototype ⟨"f", ["x"]⟩),
      .definition (.prototype ⟨"g", ["a"]⟩) (.binary "." (.call "f" [.reference "a"])
        (.binary "." (.literal (.finite false ⟨4609434218613702656, by decide⟩)) (.reference "a"))),
      .bare (.reference "x")]
    (∀ node ∈ program, node.printableItem = true) ∧
      (∀ node ∈ program, ∀ op ∈ node.operators, (table.powerOf? op).isSome = true) ∧
      ∃ text, Target.source.transpile program = .ok text ∧ parseSource table text = .ok program ∧
        List.Forall₂ (fun line node => parseSource table line = .ok [node]) (textLines text)
          program ∧
        ∀ line ∈ textLines text, ∀ c ∈ line.toList, isBlank c = true → c = ' ' := by
  intro table program
  have printable : ∀ node ∈ program, node.printableItem = true := by decide
  have known : ∀ node ∈ program, ∀ op ∈ node.operators, (table.powerOf? op).isSome = true := by
    decide
  exact ⟨printable, known, parse_transpile table program printable known⟩

end Formulary
