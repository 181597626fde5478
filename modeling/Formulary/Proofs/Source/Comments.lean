import Formulary.Proofs.Source.Decomposition

/-!
Comments and lines. Leaving out every comment, from its number sign as far as its line goes, is to
cut each line in front of its first number sign. What is left has the lines of the text and no
comment, and so the same tokens in the same places.
-/
namespace Formulary

/-- A line up to its first number sign. -/
def cutLine (line : List Char) : List Char := line.takeWhile (· != commentMark)

/-- What is left of a text that is read from left to right. A number sign goes with the longest run
behind it that holds no line feed; every other character stays. -/
inductive Strips : List Char → List Char → Prop where
  | ends : Strips [] []
  | keep {c : Char} {text left : List Char} (other : c ≠ commentMark) (others : Strips text left) :
    Strips (c :: text) (c :: left)
  | drop {body text left : List Char} (within : '\n' ∉ body) (closed : ∀ c ∈ text.head?, c = '\n')
    (others : Strips text left) : Strips (commentMark :: (body ++ text)) left

theorem cutComments_of_strips {text left : List Char} (strips : Strips text left) :
    cutComments false text = left := by
  induction strips with
  | ends => rfl
  | @keep c text left other _ ih =>
    have cut := cutComments_append (mt List.mem_singleton.mp (Ne.symm other)) text
    rw [List.singleton_append, ih] at cut
    exact cut
  | drop within closed _ ih => rw [cutComments_comment within closed, ih]

theorem exists_strips (text : List Char) : ∃ left, Strips text left := by
  -- A comment takes more than one character, so the induction is on the length.
  induction size : text.length using Nat.strongRecOn generalizing text with
  | ind n ih =>
    cases text with
    | nil => exact ⟨[], .ends⟩
    | cons c rest =>
      rw [List.length_cons] at size
      by_cases mark : c = commentMark
      · subst mark
        obtain ⟨body, later, rfl, within, closed⟩ := exists_comment rest
        rw [List.length_append] at size
        obtain ⟨left, others⟩ := ih later.length (by omega) later rfl
        exact ⟨left, .drop within closed others⟩
      · obtain ⟨left, others⟩ := ih rest.length (by omega) rest rfl
        exact ⟨c :: left, .keep mark others⟩

theorem strips_iff {text left : List Char} : Strips text left ↔ cutComments false text = left := by
  constructor
  · exact cutComments_of_strips
  · rintro rfl
    obtain ⟨left, strips⟩ := exists_strips text
    rwa [cutComments_of_strips strips]

/-- A line feed ends a comment that is open. -/
theorem cutComments_feed (inside : Bool) (first second : List Char) :
    cutComments inside (first ++ '\n' :: second) =
      cutComments inside first ++ '\n' :: cutComments false second := by
  induction first generalizing inside with
  | nil => simp [cutComments]
  | cons c first ih =>
    simp only [List.cons_append, cutComments]
    split
    · rw [ih, List.cons_append]
    · split
      · exact ih true
      · rw [ih, List.cons_append]

theorem plain_cutLine (line : List Char) : commentMark ∉ cutLine line := by
  intro member
  have other := List.all_eq_true.mp List.all_takeWhile _ member
  simp at other

theorem cutComments_line {line : List Char} (within : '\n' ∉ line) :
    cutComments false line = cutLine line := by
  have whole : cutLine line ++ line.dropWhile (· != commentMark) = line :=
    List.takeWhile_append_dropWhile
  have cut := cutComments_append (plain_cutLine line) (line.dropWhile (· != commentMark))
  rw [whole] at cut
  cases rest : line.dropWhile (· != commentMark) with
  | nil => rw [cut, rest, cutComments, List.append_nil]
  | cons c body =>
    obtain rfl : c = commentMark := by
      have mark := head_dropWhile c (by rw [rest]; rfl)
      rwa [bne_eq_false_iff_eq] at mark
    have tail : '\n' ∉ body := by
      intro member
      exact within (whole ▸ List.mem_append_right _ (by simp [rest, member]))
    have comment : cutComments false (commentMark :: (body ++ [])) = [] :=
      cutComments_comment tail (by simp)
    rw [List.append_nil] at comment
    rw [cut, rest, comment, List.append_nil]

theorem cutComments_lines {lines : List (List Char)} (within : ∀ line ∈ lines, '\n' ∉ line) :
    cutComments false (['\n'].intercalate lines) = ['\n'].intercalate (lines.map cutLine) := by
  induction lines with
  | nil => rfl
  | cons line lines ih =>
    obtain ⟨here, later⟩ := List.forall_mem_cons.mp within
    cases lines with
    | nil => simpa using cutComments_line here
    | cons next lines =>
      rw [List.intercalate_cons_cons, List.append_assoc, List.singleton_append, cutComments_feed,
        ih later, cutComments_line here]
      simp [List.intercalate_cons_cons]

theorem inline_splitOn (text : List Char) : ∀ line ∈ text.splitOn '\n', '\n' ∉ line := by
  induction text with
  | nil => simp
  | cons c text ih =>
    rw [List.splitOn_cons_eq_if_modifyHead]
    split
    · simpa using ih
    · next printed =>
      cases lines : text.splitOn '\n' with
      | nil => exact absurd lines (List.splitOn_ne_nil _ _)
      | cons line lines =>
        rw [lines] at ih
        obtain ⟨here, later⟩ := List.forall_mem_cons.mp ih
        refine List.forall_mem_cons.mpr ⟨List.not_mem_cons_of_ne_of_not_mem ?_ here, later⟩
        rintro rfl
        exact printed (beq_self_eq_true _)

theorem plain_cutComments (inside : Bool) (text : List Char) :
    commentMark ∉ cutComments inside text := by
  induction text generalizing inside with
  | nil => simp [cutComments]
  | cons c text ih =>
    simp only [cutComments]
    split
    · next feed =>
      refine List.not_mem_cons_of_ne_of_not_mem ?_ (ih false)
      rw [feed]
      decide
    · split
      · exact ih true
      · next other =>
        refine List.not_mem_cons_of_ne_of_not_mem ?_ (ih false)
        rintro rfl
        exact other (by simp)

theorem count_cutComments (inside : Bool) (text : List Char) :
    (cutComments inside text).count '\n' = text.count '\n' := by
  induction text generalizing inside with
  | nil => rfl
  | cons c text ih =>
    rw [cutComments]
    split
    · next feed => rw [feed, List.count_cons_self, List.count_cons_self, ih]
    · next printed =>
      split
      · rw [ih, List.count_cons_of_ne printed]
      · rw [List.count_cons_of_ne printed, ih, List.count_cons_of_ne printed]

theorem stripComments_stripComments (source : String) :
    stripComments (stripComments source) = stripComments source := by
  rw [stripComments, stripComments, String.toList_ofList,
    cutComments_of_plain (plain_cutComments false _)]

/-- Leaving out the comments is to cut every line in front of its first number sign. It leaves no
number sign, the same lines, and nothing to leave out again; it changes no token and no place, and
lines may be joined before or after it. -/
theorem stripComments_by_lines :
    (∀ source : String,
      (stripComments source).toList =
        ['\n'].intercalate ((source.toList.splitOn '\n').map cutLine) ∧
      Strips source.toList (stripComments source).toList ∧
      commentMark ∉ (stripComments source).toList ∧
      (stripComments source).toList.count '\n' = source.toList.count '\n' ∧
      stripComments (stripComments source) = stripComments source ∧
      tokenize (stripComments source) = tokenize source) ∧
    ∀ first second : String,
      stripComments (first ++ "\n" ++ second) =
        stripComments first ++ "\n" ++ stripComments second := by
  constructor
  · intro source
    have chars : (stripComments source).toList = cutComments false source.toList :=
      String.toList_ofList
    have again := stripComments_stripComments source
    refine ⟨?_, ?_, ?_, ?_, again, ?_⟩
    · have lines := cutComments_lines (inline_splitOn source.toList)
      rwa [List.intercalate_splitOn, ← chars] at lines
    · exact strips_iff.mpr chars.symm
    · exact chars ▸ plain_cutComments false _
    · exact chars ▸ count_cutComments false _
    · rw [tokenize, again, tokenize]
  · intro first second
    have text : (first ++ "\n" ++ second).toList = first.toList ++ '\n' :: second.toList := by simp
    rw [stripComments, text, cutComments_feed]
    simp [stripComments, String.append_assoc]

end Formulary
