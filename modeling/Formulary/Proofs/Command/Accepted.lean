import Formulary.Command.Options
import Formulary.Proofs.Outcome

/-!
What an accepted command line asks for. Whatever every option and every word of the source preserves
holds of the options in the end. So a target that is given is one of the output formats.
-/
namespace Formulary

namespace Options

/-- What no option and no word of the source changes from true to false. -/
structure IsKept (inv : Options → Prop) : Prop where
  apply : ∀ {options next : Options} {use : Use}, options.apply use = .ok (some next) →
    inv options → inv next
  word : ∀ {options : Options} (word : String), inv options →
    inv { options with source := options.source ++ [word] }

variable {inv : Options → Prop}

theorem applyAll_kept (kept : IsKept inv) {options last : Options} {uses : List Use}
    (applied : options.applyAll uses = .ok (some last)) (holds : inv options) : inv last := by
  induction uses generalizing options with
  | nil =>
    obtain rfl := Option.some.inj (Except.ok.inj applied)
    exact holds
  | cons use uses ih =>
    simp only [applyAll] at applied
    split at applied
    · next move => exact ih applied (kept.apply move holds)
    · next stuck => exact absurd applied (stuck last)

namespace Progress

variable {p last : Progress}

theorem takePlain_kept (kept : IsKept inv) {word : String}
    (taken : p.takePlain word = .ok (some last)) (holds : inv p.options) : inv last.options := by
  unfold takePlain at taken
  split at taken
  · obtain ⟨found, applied, same⟩ := bind_eq_ok.mp taken
    obtain ⟨options, rfl, rfl⟩ := Option.map_eq_some_iff.mp (Except.ok.inj same)
    exact applyAll_kept kept applied holds
  · split at taken
    · obtain rfl := Option.some.inj (Except.ok.inj taken)
      exact holds
    · obtain rfl := Option.some.inj (Except.ok.inj taken)
      exact kept.word word holds

theorem takeGroup_kept (kept : IsKept inv) {group : Group}
    (taken : p.takeGroup group = .ok (some last)) (holds : inv p.options) : inv last.options := by
  unfold takeGroup at taken
  dsimp only at taken
  split at taken
  · obtain rfl := Option.some.inj (Except.ok.inj taken)
    exact holds
  · obtain ⟨found, applied, same⟩ := bind_eq_ok.mp taken
    obtain ⟨options, rfl, rfl⟩ := Option.map_eq_some_iff.mp (Except.ok.inj same)
    exact applyAll_kept kept applied holds

theorem take_kept (kept : IsKept inv) {word : Word} (taken : p.take word = .ok (some last))
    (holds : inv p.options) : inv last.options := by
  unfold take at taken
  split at taken
  · exact takePlain_kept kept taken holds
  · cases taken
  · split at taken
    · obtain rfl := Option.some.inj (Except.ok.inj taken)
      exact holds
    · obtain rfl := Option.some.inj (Except.ok.inj taken)
      exact holds
  · exact takeGroup_kept kept taken holds
  · exact takeGroup_kept kept taken holds
  · obtain ⟨group, _, grouped⟩ := bind_eq_ok.mp taken
    exact takeGroup_kept kept grouped holds

theorem takeAll_kept (kept : IsKept inv) {words : List Word}
    (taken : p.takeAll words = .ok (some last)) (holds : inv p.options) : inv last.options := by
  induction words generalizing p with
  | nil =>
    simp only [takeAll] at taken
    split at taken
    · cases taken
    · obtain rfl := Option.some.inj (Except.ok.inj taken)
      exact holds
  | cons word words ih =>
    obtain ⟨found, here, later⟩ := bind_eq_ok.mp taken
    cases found with
    | none => cases later
    | some next => exact ih later (take_kept kept here holds)

end Progress

theorem read_kept (kept : IsKept inv) {argv : List String} {options : Options}
    (accepted : read argv = .ok (.options options)) (holds : inv {}) : inv options := by
  obtain ⟨words, _, rest⟩ := bind_eq_ok.mp accepted
  obtain ⟨found, taken, read⟩ := bind_eq_ok.mp rest
  cases found with
  | none => cases read
  | some last =>
    dsimp only at read
    split at read
    · obtain rfl := Parsed.options.inj (Except.ok.inj read)
      exact Progress.takeAll_kept kept taken holds
    · cases read

/-- A target that is given is one of the output formats. -/
def HasFormat (options : Options) : Prop := ∀ format ∈ options.target, format ∈ outputFormats

theorem apply_format {options next : Options} {use : Use}
    (applied : options.apply use = .ok (some next)) (holds : options.HasFormat) :
    next.HasFormat := by
  unfold apply at applied
  split at applied
  · cases applied
  · obtain rfl := Option.some.inj (Except.ok.inj applied)
    exact holds
  · next value =>
    split at applied
    · next known =>
      obtain rfl := Option.some.inj (Except.ok.inj applied)
      intro format member
      obtain rfl := Option.some.inj member
      simpa using known
    · cases applied
  · obtain rfl := Option.some.inj (Except.ok.inj applied)
    exact fun _ member => nomatch member
  · obtain rfl := Option.some.inj (Except.ok.inj applied)
    exact holds
  · split at applied
    · obtain rfl := Option.some.inj (Except.ok.inj applied)
      exact holds
    · cases applied
  · obtain rfl := Option.some.inj (Except.ok.inj applied)
    exact holds
  · obtain rfl := Option.some.inj (Except.ok.inj applied)
    exact holds

theorem format_of_read {argv : List String} {options : Options}
    (accepted : read argv = .ok (.options options)) : options.HasFormat :=
  read_kept ⟨apply_format, fun _ holds => holds⟩ accepted (by simp [HasFormat, outputFormats])

end Options

end Formulary
