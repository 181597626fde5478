import Formulary.Proofs.Source.Decomposition
import Formulary.Text.LineEnd

/-!
Line ends. A carriage return in front of a line feed is white space, or the last character of a
comment. It shifts nothing: the line feed puts the column back.
-/
namespace Formulary

/-- Some of the line feeds of a text have got a carriage return in front of them. -/
inductive Returned : List Char → List Char → Prop where
  | nil : Returned [] []
  | keep {c : Char} {text other : List Char} (others : Returned text other) :
    Returned (c :: text) (c :: other)
  | turn {text other : List Char} (others : Returned text other) :
    Returned ('\n' :: text) ('\r' :: '\n' :: other)

namespace Returned

variable {text other : List Char}

/-- Text that holds no line feed is as it was. -/
theorem append_inv {v : List Char} (within : '\n' ∉ v) (returned : Returned (v ++ text) other) :
    ∃ later, other = v ++ later ∧ Returned text later := by
  induction v generalizing other with
  | nil => exact ⟨other, rfl, returned⟩
  | cons c v ih =>
    obtain ⟨printed, within⟩ := not_or.mp (mt List.mem_cons.mpr within)
    cases returned with
    | keep others =>
      obtain ⟨later, same, others⟩ := ih within others
      exact ⟨later, congrArg (c :: ·) same, others⟩
    | turn => exact absurd rfl printed

theorem head (returned : Returned text other) :
    ∀ d ∈ other.head?, d ∈ text.head? ∨ d = '\r' := by
  cases returned with
  | nil => simp
  | keep others => exact fun d member => .inl member
  | turn others => exact fun d member => .inr (Option.some.inj member).symm

/-- Where a line ends or the text does, a carriage return may stand in front. -/
theorem closed_inv (returned : Returned text other) (closed : ∀ c ∈ text.head?, c = '\n') :
    ∃ w later, other = w ++ later ∧ '\n' ∉ w ∧ (∀ c ∈ later.head?, c = '\n') ∧
      Returned text later := by
  cases returned with
  | nil => exact ⟨[], [], rfl, by simp, by simp, .nil⟩
  | keep others => exact ⟨[], _, rfl, by simp, closed, .keep others⟩
  | turn others => exact ⟨['\r'], _, rfl, by decide, by simp, .keep others⟩

/-- Reading a line end in either form as a line feed gives the text back. -/
theorem joinLineEnds_eq (returned : Returned text other) (plain : '\r' ∉ text) :
    joinLineEnds other = text := by
  induction returned with
  | nil => rfl
  | @keep c text other _ ih =>
    obtain ⟨apart, plain⟩ := not_or.mp (mt List.mem_cons.mpr plain)
    simp [joinLineEnds, ih plain, Ne.symm apart]
  | turn _ ih =>
    rw [joinLineEnds, ih (mt (List.mem_cons_of_mem _) plain)]

end Returned

/-- A text with some of its line ends turned has the tokens of the text, if the places before the
two agree as soon as the next character is passed. -/
theorem decomposes_returned {before before' source other : List Char} {tokens : List Token}
    (pieces : Decomposes before source tokens) (returned : Returned source other)
    (placed : ∀ c ∈ source.head?, (Place.behind before').past c = (Place.behind before).past c) :
    Decomposes before' other tokens := by
  -- Behind a comment that has got a carriage return the columns differ, but a line feed comes
  -- next; so `placed` asks for no more than the place behind the next character.
  induction pieces generalizing before' other with
  | ends =>
    cases returned
    exact .ends
  | @blank before rest c tokens blank _ ih =>
    have here : (Place.behind before').past c = (Place.behind before).past c := placed c rfl
    rw [← Place.behind_snoc before] at here
    cases returned with
    | keep others =>
      refine .blank blank (ih others fun d _ => ?_)
      rw [Place.behind_snoc, here]
    | turn others =>
      refine .blank (by decide) (.blank blank (ih others fun d _ => ?_))
      have turned : (Place.behind (before' ++ ['\r'])).line = (Place.behind before').line :=
        Place.line_behind (by decide)
      rw [Place.behind_snoc, Place.past_feed turned, here]
  | @comment before body rest tokens within closed _ ih =>
    have here : Place.behind before' = .behind before :=
      Place.eq_of_past (by decide) (placed commentMark rfl)
    have plain : '\n' ∉ commentMark :: body := by
      simpa [show '\n' ≠ commentMark by decide] using within
    cases returned with
    | keep inside =>
      obtain ⟨behind, rfl, ending⟩ := inside.append_inv within
      obtain ⟨w, later, rfl, within', closed', others⟩ := ending.closed_inv closed
      rw [← List.append_assoc]
      refine .comment (List.not_mem_append within within') closed' (ih others fun d member => ?_)
      rw [closed d member, ← List.cons_append]
      refine Place.past_feed ?_
      rw [Place.line_behind plain, Place.line_behind (List.not_mem_append plain within'), here]
  | @lexeme before rest l value tokens lexeme _ ih =>
    have here : Place.behind before' = .behind before := lexeme.place_eq placed
    obtain ⟨later, rfl, others⟩ := returned.append_inv lexeme.printed
    rw [← here]
    refine .lexeme (lexeme.follow fun d member => ?_) (ih others fun d _ => ?_)
    · rcases others.head d member with same | rfl
      · exact .inl same
      · exact .inr (by decide)
    · rw [Place.behind_append, Place.behind_append, here]

theorem tokenize_returned {source other : String}
    (returned : Returned source.toList other.toList) : tokenize other = tokenize source :=
  tokenize_of_decomposes
    (decomposes_returned (decomposes_tokenize source) returned fun _ _ => rfl)

end Formulary
