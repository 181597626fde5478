import Formulary.Proofs.Number.Figure
import Formulary.Proofs.Text.Delimited

/-!
What a display tells. The display of a node ends by itself, whatever its names hold, so it is the
display of no other node, and the displays of a list of nodes give the list back.
-/
namespace Formulary

/-! ## Parts -/

theorem unclosed_displayChars (x : Binary64) : ')' ∉ x.displayChars := by
  cases x with
  | nan => decide
  | infinite negative => cases negative <;> decide
  | finite negative code =>
    obtain ⟨f, text, _⟩ := @Figure.exists_display (.finite negative code) rfl
    rw [← text]
    intro member
    exact absurd (f.chars_inside _ member) (by decide)

/-- The mark that closes the display of a number tells where its text ends. -/
theorem display_unique {x y : Binary64} {rest rest' : List Char}
    (same : x.display.toList ++ (")".toList ++ rest) = y.display.toList ++ (")".toList ++ rest')) :
    x = y ∧ rest = rest' := by
  simp only [Binary64.display, String.toList_ofList, String.reduceToList, List.cons_append,
    List.nil_append] at same
  obtain ⟨chars, behind⟩ := front_unique (unclosed_displayChars x) (unclosed_displayChars y) same
  have read := read_display x
  rw [Binary64.display, chars, ← Binary64.display, read_display] at read
  exact ⟨(Option.some.inj read).symm, behind⟩

theorem delimited_quoted (s : String) : Delimited (fun s => (quoted s).toList) s := by
  intro t rest rest' same
  simp only [quoted, String.toList_ofList] at same
  obtain ⟨chars, behind⟩ := delimited_quotedChars s.toList _ _ _ same
  exact ⟨String.toList_injective chars, behind⟩

theorem delimited_bracketed {α : Type} {text : α → String}
    (opens : Opens (fun a => (text a).toList) (some ']')) {as : List α}
    (delimited : ∀ a ∈ as, Delimited (fun a => (text a).toList) a) :
    Delimited (fun as => (bracketed (as.map text)).toList) as := by
  intro bs rest rest' same
  simp only [bracketed, commaJoined, String.toList_append, String.toList_intercalate,
    List.map_map, List.append_assoc] at same
  have inner := List.append_cancel_left same
  obtain ⟨lists, behind⟩ := intercalate_unique opens (by decide) delimited rfl rfl inner
  exact ⟨lists, (List.cons.inj behind).2⟩

theorem opens_quoted : Opens (fun s => (quoted s).toList) (some ']') := by
  intro s
  refine ⟨quoteMark s.toList, _, String.toList_ofList, ?_⟩
  rcases quoteMark_quote s.toList with mark | mark <;> rw [mark] <;> decide

/-! ## Nodes -/

namespace Node

theorem title_injective {k k' : NodeKind} (same : k.title = k'.title) : k = k' := by
  cases k <;> cases k' <;> first
    | rfl
    | exact absurd same (by decide)

/-- The title of a node stands in front of the first parenthesis. -/
theorem title_of_display (node : Node) (rest : List Char) :
    (node.display.toList ++ rest).takeWhile (· != '(') = node.kind.title.toList := by
  cases node <;> simp [display, Prototype.display, kind, NodeKind.title]

theorem kind_of_display {a b : Node} {rest rest' : List Char}
    (same : a.display.toList ++ rest = b.display.toList ++ rest') : a.kind = b.kind := by
  have titles := congrArg (List.takeWhile (· != '(')) same
  rw [title_of_display, title_of_display] at titles
  exact title_injective (String.toList_injective titles)

theorem opens_display : Opens (fun node => (display node).toList) (some ']') := by
  intro node
  cases node <;> simp only [display, Prototype.display, String.toList_append, List.append_assoc] <;>
    exact ⟨_, _, rfl, by decide⟩

theorem displayAll_eq (nodes : List Node) : displayAll nodes = nodes.map display := by
  induction nodes with
  | nil => rfl
  | cons node nodes ih => rw [displayAll, ih, List.map_cons]

theorem delimited_prototype (p : Prototype) :
    Delimited (fun p => (Prototype.display p).toList) p := by
  intro q rest rest' same
  obtain ⟨name, params⟩ := p
  obtain ⟨name', params'⟩ := q
  simp only [Prototype.display, String.toList_append, List.append_assoc] at same
  obtain ⟨rfl, parameters⟩ := (delimited_quoted name).cancel same
  have list : Delimited (fun params => (bracketed (params.map quoted)).toList) params :=
    delimited_bracketed opens_quoted fun s _ => delimited_quoted s
  obtain ⟨rfl, closing⟩ := list.cancel parameters
  exact ⟨rfl, List.append_cancel_left closing⟩

mutual

/-- The display of a node ends by itself: the title tells the kind, and each part ends by itself. -/
theorem delimited_display : ∀ a : Node, Delimited (fun node => (display node).toList) a
  | .literal x => by
    intro b rest rest' same
    have kinds := kind_of_display same
    cases b with
    | literal y =>
      simp only [display, String.toList_append, List.append_assoc] at same
      have inner := List.append_cancel_left same
      obtain ⟨rfl, behind⟩ := display_unique inner
      exact ⟨rfl, behind⟩
    | _ => cases kinds
  | .reference name => by
    intro b rest rest' same
    have kinds := kind_of_display same
    cases b with
    | reference other =>
      simp only [display, String.toList_append, List.append_assoc] at same
      obtain ⟨rfl, closing⟩ := (delimited_quoted name).cancel same
      exact ⟨rfl, List.append_cancel_left closing⟩
    | _ => cases kinds
  | .binary op left right => by
    intro b rest rest' same
    have kinds := kind_of_display same
    cases b with
    | binary op' left' right' =>
      simp only [display, String.toList_append, List.append_assoc] at same
      obtain ⟨rfl, operands⟩ := (delimited_quoted op).cancel same
      obtain ⟨rfl, second⟩ := (delimited_display left).cancel operands
      obtain ⟨rfl, closing⟩ := (delimited_display right).cancel second
      exact ⟨rfl, List.append_cancel_left closing⟩
    | _ => cases kinds
  | .call callee args => by
    intro b rest rest' same
    have kinds := kind_of_display same
    cases b with
    | call callee' args' =>
      simp only [display, displayAll_eq, String.toList_append, List.append_assoc] at same
      obtain ⟨rfl, arguments⟩ := (delimited_quoted callee).cancel same
      have list : Delimited (fun args => (bracketed (args.map display)).toList) args :=
        delimited_bracketed opens_display (delimited_displays args)
      obtain ⟨rfl, closing⟩ := list.cancel arguments
      exact ⟨rfl, List.append_cancel_left closing⟩
    | _ => cases kinds
  | .expression => by
    intro b rest rest' same
    have kinds := kind_of_display same
    cases b with
    | expression => exact ⟨rfl, List.append_cancel_left same⟩
    | _ => cases kinds
  | .prototype p => by
    intro b rest rest' same
    have kinds := kind_of_display same
    cases b with
    | prototype q =>
      obtain ⟨rfl, behind⟩ := delimited_prototype p _ _ _ same
      exact ⟨rfl, behind⟩
    | _ => cases kinds
  | .declaration signature => by
    intro b rest rest' same
    have kinds := kind_of_display same
    cases b with
    | declaration signature' =>
      simp only [display, String.toList_append, List.append_assoc] at same
      obtain ⟨rfl, closing⟩ := (delimited_display signature).cancel same
      exact ⟨rfl, List.append_cancel_left closing⟩
    | _ => cases kinds
  | .definition signature body => by
    intro b rest rest' same
    have kinds := kind_of_display same
    cases b with
    | definition signature' body' =>
      simp only [display, String.toList_append, List.append_assoc] at same
      obtain ⟨rfl, second⟩ := (delimited_display signature).cancel same
      obtain ⟨rfl, closing⟩ := (delimited_display body).cancel second
      exact ⟨rfl, List.append_cancel_left closing⟩
    | _ => cases kinds
  | .item signature => by
    intro b rest rest' same
    have kinds := kind_of_display same
    cases b with
    | item signature' =>
      simp only [display, String.toList_append, List.append_assoc] at same
      obtain ⟨rfl, closing⟩ := (delimited_display signature).cancel same
      exact ⟨rfl, List.append_cancel_left closing⟩
    | _ => cases kinds

theorem delimited_displays : ∀ as : List Node,
    ∀ a ∈ as, Delimited (fun node => (display node).toList) a
  | [], _, member => absurd member List.not_mem_nil
  | a :: as, b, member => by
    rcases List.mem_cons.mp member with first | later
    · rw [first]
      exact delimited_display a
    · exact delimited_displays as b later

end

theorem display_injective {a b : Node} (same : a.display = b.display) : a = b :=
  (delimited_display a b [] [] (congrArg (·.toList ++ []) same)).1

/-- The displays of nodes, each on a line, give the nodes. -/
theorem lines_injective {nodes others : List Node}
    (same : String.intercalate "\n" (nodes.map display) =
      String.intercalate "\n" (others.map display)) : nodes = others := by
  have opens : Opens (fun node => (display node).toList) none := by
    intro node
    obtain ⟨c, cs, begins, _⟩ := opens_display node
    exact ⟨c, cs, begins, nofun⟩
  have chars : ['\n'].intercalate (nodes.map fun node => node.display.toList) ++ [] =
      ['\n'].intercalate (others.map fun node => node.display.toList) ++ [] := by
    simpa [String.toList_intercalate, Function.comp_def] using congrArg String.toList same
  exact (intercalate_unique opens nofun (fun node _ => delimited_display node) rfl rfl chars).1

end Node

end Formulary
