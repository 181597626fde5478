import Formulary.Command.Folder
import Formulary.Command.Job
import Mathlib.Logic.Basic

/-!
Jobs in a folder. Only the last thing that a job does can change the folder: it puts the text in the
output file, if there is one and it can be opened.
-/
namespace Formulary

/-! ## Folders -/

namespace Folder

/-- The file that a path opens for writing, if it can be opened. -/
def opens? (folder : Folder) (path : String) : Option Path :=
  if '\x00' ∈ path.toList then none
  else match folder.entryFor path with
    | .ok entry => some entry
    | .error _ => none

variable {folder : Folder} {path : String} {bytes : List UInt8}

theorem write_opened {entry : Path} (opened : folder.opens? path = some entry) :
    folder.write path bytes = .ok ⟨Assoc.put entry bytes folder.files⟩ := by
  unfold opens? at opened
  split at opened
  · cases opened
  · next inside =>
    split at opened
    · next found =>
      obtain rfl := Option.some.inj opened
      rw [write, if_neg inside, found]
    · cases opened

theorem write_refused (refused : folder.opens? path = none) (bytes : List UInt8) :
    ∃ fault, folder.write path bytes = .error fault := by
  unfold opens? at refused
  split at refused
  · next inside => exact ⟨_, by rw [write, if_pos inside]⟩
  · next inside =>
    split at refused
    · cases refused
    · next found => exact ⟨_, by rw [write, if_neg inside, found]⟩

theorem access_write (folder : Folder) (path : String) (bytes : List UInt8) :
    (access.write path bytes).run folder = pure (match folder.write path bytes with
      | .ok later => (.ok (), later)
      | .error fault => (.error fault, folder)) := rfl

/-- One file of a folder has got these bytes, and every other file is as it was. -/
def HasPut (folder : Folder) (entry : Path) (bytes : List UInt8) (later : Folder) : Prop :=
  later.contents? entry = some bytes ∧
    ∀ other ≠ entry, later.contents? other = folder.contents? other

theorem hasPut_put (folder : Folder) (entry : Path) (bytes : List UInt8) :
    folder.HasPut entry bytes ⟨Assoc.put entry bytes folder.files⟩ := by
  have same : (List.instBEq : BEq Path) = instBEqOfDecidableEq := lawful_beq_subsingleton _ _
  refine ⟨?_, fun other apart => ?_⟩
  · simp only [contents?]
    rw [same]
    exact Assoc.lookup_put_self _ _ _
  · simp only [contents?]
    rw [same]
    exact Assoc.lookup_put_of_ne apart _ _

end Folder

/-! ## Jobs -/

namespace Job

variable {job : Job} {folder : Folder} {source text : String} {fault : JobFault}
  {log : List LogEntry}

theorem endsWith_iff (path : String) :
    path.toList.reverse.take 3 = ['s', 'k', '.'] ↔ ['.', 'k', 's'] <:+ path.toList := by
  rw [← List.reverse_prefix, List.prefix_iff_eq_take, eq_comm]
  rfl

/-- The source text of a job in a folder. -/
def inputIn (job : Job) (folder : Folder) : Except JobFault String :=
  match job.sourcePath? with
  | .error fault => .error fault
  | .ok none => .ok job.source
  | .ok (some path) => ((folder.read path).bind decodeText).mapError .file

def runIn (job : Job) (folder : Folder) : JobResult × Folder :=
  ((job.run Folder.access).run folder).run

/-- Finding the source text leaves the folder as it is. -/
theorem input_access (job : Job) (folder : Folder) :
    (job.input Folder.access).run folder = pure (job.inputIn folder, folder) := by
  unfold input inputIn
  cases job.sourcePath? with
  | error fault => rfl
  | ok path =>
    cases path with
    | none => rfl
    | some path => rfl

theorem run_unfound (failed : job.inputIn folder = .error fault) :
    job.runIn folder = (⟨.error fault, "", []⟩, folder) := by
  simp only [runIn, run, StateT.run_bind, input_access, failed]
  rfl

theorem run_refused (found : job.inputIn folder = .ok source)
    (refused : job.compose source = (.error fault, log)) :
    job.runIn folder = (⟨.error fault, "", log⟩, folder) := by
  simp only [runIn, run, StateT.run_bind, input_access, found, pure_bind, refused]
  rfl

theorem run_printed (found : job.inputIn folder = .ok source)
    (composed : job.compose source = (.ok text, log)) (printed : job.outPath? = none) :
    job.runIn folder = (⟨.ok text, text ++ "\n", log⟩, folder) := by
  simp only [runIn, run, StateT.run_bind, input_access, found, pure_bind, composed, deliver,
    printed]
  rfl

theorem run_written {path : String} {entry : Path} (found : job.inputIn folder = .ok source)
    (composed : job.compose source = (.ok text, log)) (out : job.outPath? = some path)
    (opened : folder.opens? path = some entry) :
    job.runIn folder = (⟨.ok text, "", log ++ [.wrote path]⟩,
      ⟨Assoc.put entry (Utf8.encode (text ++ "\n").toList) folder.files⟩) := by
  simp only [runIn, run, StateT.run_bind, input_access, found, pure_bind, composed, deliver, out,
    Folder.access_write, Folder.write_opened opened]
  rfl

theorem run_unwritten {path : String} (found : job.inputIn folder = .ok source)
    (composed : job.compose source = (.ok text, log)) (out : job.outPath? = some path)
    (refused : folder.opens? path = none) :
    ∃ fault, job.runIn folder = (⟨.error (.file fault), "", log⟩, folder) := by
  obtain ⟨fault, failed⟩ := Folder.write_refused refused (Utf8.encode (text ++ "\n").toList)
  refine ⟨fault, ?_⟩
  simp only [runIn, run, StateT.run_bind, input_access, found, pure_bind, composed, deliver, out,
    Folder.access_write, failed]
  rfl

variable {table : OperatorTable} {nodes : List Node}

theorem compose_table (job : Job) (source : String) {fault : TableFault}
    (refused : OperatorTable.ofEntries job.operators = .error fault) :
    ∃ log, job.compose source = (.error (.table fault), log) := by
  simp only [compose, refused]
  exact ⟨_, rfl⟩

theorem compose_parse (job : Job) {fault : Fault}
    (accepted : OperatorTable.ofEntries job.operators = .ok table)
    (failed : parseSource table source = .error fault) :
    ∃ log, job.compose source = (.error (.transpile (.parse fault)), log) := by
  obtain ⟨e, outcome, rfl⟩ := parseSource_eq_error_iff.mp failed
  simp only [compose, accepted, outcome]
  exact ⟨_, rfl⟩

theorem compose_shown (job : Job) (accepted : OperatorTable.ofEntries job.operators = .ok table)
    (parse : parseSource table source = .ok nodes) :
    ∃ log, job.compose source = ((shown job.format nodes).mapError .transpile, log) := by
  have outcome := parseSource_eq_ok_iff.mp parse
  simp only [compose, accepted, outcome]
  exact ⟨_, rfl⟩

end Job

end Formulary
