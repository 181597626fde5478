import Formulary.Proofs.Command.Delivery
import Formulary.Proofs.Source.LineEnds
import Formulary.Proofs.Text.Utf8

/-!
Where the source text comes from. A job whose source lies in a file ends as the job that is given
the text itself, whichever line ends the file has.
-/
namespace Formulary

theorem decodeText_returned {text other : String} (plain : '\r' ∉ text.toList)
    (returned : Returned text.toList other.toList) :
    decodeText (Utf8.encode other.toList) = .ok text := by
  rw [decodeText, Utf8.decode_encode]
  dsimp only
  rw [returned.joinLineEnds_eq plain, String.ofList_toList]

namespace Job

variable {job : Job} {folder : Folder} {source text : String}

/-- The job with a source text. -/
def given (job : Job) (text : String) : Job := { job with source := text, isFile := false }

/-- The job with a file that holds the source text. -/
def reading (job : Job) (path : String) : Job := { job with source := path, isFile := true }

theorem input_given (job : Job) (text : String) (folder : Folder) :
    (job.given text).inputIn folder = .ok text := rfl

theorem input_reading {path : String} {bytes : List UInt8} (job : Job)
    (suffix : ['.', 'k', 's'] <:+ path.toList) (stored : folder.read path = .ok bytes) :
    (job.reading path).inputIn folder = (decodeText bytes).mapError .file := by
  have found : (job.reading path).sourcePath? = .ok (some path) := by
    simp [sourcePath?, reading, (endsWith_iff path).mpr suffix]
  rw [inputIn, found]
  dsimp only
  rw [stored]
  rfl

/-- A job sees of its source text only the tokens. -/
theorem compose_tokens (job : Job) {other : String} (same : tokenize other = tokenize text) :
    job.compose other = job.compose text := by
  unfold compose
  rw [same]

/-- Two jobs that make the same of their source texts and have one output file end alike. -/
theorem run_alike {other : Job} {source' : String} (found : job.inputIn folder = .ok source)
    (found' : other.inputIn folder = .ok source')
    (composed : other.compose source' = job.compose source) (out : other.out = job.out) :
    other.runIn folder = job.runIn folder := by
  have delivered (text : String) (log : List LogEntry) :
      other.deliver Folder.access text log = job.deliver Folder.access text log := by
    simp only [deliver, outPath?, out]
  simp only [runIn, run, StateT.run_bind, input_access, found, found', pure_bind, composed,
    delivered]

end Job

/-- Line feeds that become a carriage return and a line feed change no token and no place. A job
ends the same with either text, and also if the text lies in a file. -/
theorem line_ends_immaterial {text other : String} (plain : '\r' ∉ text.toList)
    (returned : Returned text.toList other.toList) :
    tokenize other = tokenize text ∧
      ∀ (job : Job) (folder : Folder),
        (job.given other).runIn folder = (job.given text).runIn folder ∧
        ∀ path : String, ['.', 'k', 's'] <:+ path.toList →
          folder.read path = .ok (Utf8.encode other.toList) →
            (job.reading path).runIn folder = (job.given text).runIn folder := by
  have tokens := tokenize_returned returned
  refine ⟨tokens, fun job folder => ⟨?_, fun path suffix stored => ?_⟩⟩
  · exact Job.run_alike rfl rfl (Job.compose_tokens _ tokens) rfl
  · have found : (job.reading path).inputIn folder = .ok text := by
      rw [Job.input_reading job suffix stored, decodeText_returned plain returned]
      rfl
    exact Job.run_alike (Job.input_given job text folder) found rfl rfl

/-- A comment and a name on two lines, in a file and as words. -/
theorem line_ends_immaterial_comment :
    let folder : Folder := ⟨[(["a.ks"], Utf8.encode "#\r\nx".toList)]⟩
    '\r' ∉ "#\nx".toList ∧ Returned "#\nx".toList "#\r\nx".toList ∧
      ['.', 'k', 's'] <:+ "a.ks".toList ∧
      folder.read "a.ks" = .ok (Utf8.encode "#\r\nx".toList) ∧
      tokenize "#\r\nx" = tokenize "#\nx" ∧
      ∀ job : Job, (job.given "#\r\nx").runIn folder = (job.given "#\nx").runIn folder ∧
        (job.reading "a.ks").runIn folder = (job.given "#\nx").runIn folder := by
  intro folder
  have plain : '\r' ∉ "#\nx".toList := by decide
  have returned : Returned "#\nx".toList "#\r\nx".toList := .keep (.turn (.keep .nil))
  have suffix : ['.', 'k', 's'] <:+ "a.ks".toList := ⟨['a'], rfl⟩
  have stored : folder.read "a.ks" = .ok (Utf8.encode "#\r\nx".toList) := rfl
  obtain ⟨tokens, runs⟩ := line_ends_immaterial plain returned
  refine ⟨plain, returned, suffix, stored, tokens, fun job => ?_⟩
  obtain ⟨words, file⟩ := runs job folder
  exact ⟨words, file "a.ks" suffix stored⟩

end Formulary
