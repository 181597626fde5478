import Formulary.Command.Session
import Formulary.Proofs.Command.Accepted
import Formulary.Proofs.Command.Delivery
import Formulary.Proofs.Parse.Refusal
import Formulary.Proofs.Print.Emission

/-!
How a session ends in a folder. The source, the operator table, the program, its text and the output
file are looked at in this order, and the first that is not as it should be decides the status.
Unless all are, nothing is printed and no file is touched; else the text goes to one place.
-/
namespace Formulary

/-- A job's fault has a status; only the lack of a target breaks a session off. -/
structure JobFault.HasStatus (fault : JobFault) (status : Nat) : Prop where
  status : fault.status = status
  closes : fault ≠ .transpile .noTarget

/-- A text that does not parse is refused for one of its tokens, or for its end. -/
theorem status_of_parse {table : OperatorTable} {source : String} {fault : Fault}
    (failed : parseSource table source = .error fault) :
    JobFault.status (.transpile (.parse fault)) = 1 := by
  obtain ⟨e, outcome, rfl⟩ := parseSource_eq_error_iff.mp failed
  have wellFormed := wellFormed_tokenize source
  have fails := Machine.fails_of_run (fun t member => (wellFormed t member).live)
    (Prod.ext outcome rfl)
  rcases ProgramReading.fails_cases wellFormed fails with ⟨_, last, _, early⟩ |
    ⟨_, _, _, _, _, _, _, refused⟩
  · rw [(ProgramReading.atEnd_error early).1]
    rfl
  · rcases ProgramReading.step_refuse refused with ⟨_, same⟩ | ⟨_, same⟩ <;> rw [same] <;> rfl

/-- A number of the program is too large for a double. -/
def Node.Overflows (nodes : List Node) : Prop :=
  ∃ negative, Binary64.infinite negative ∈ nodes.flatMap Node.literals

instance (nodes : List Node) : Decidable (Node.Overflows nodes) :=
  inferInstanceAs (Decidable (∃ negative, Binary64.infinite negative ∈ nodes.flatMap Node.literals))

/-- A program is shown in its format, unless a number in it overflows and the format has no text for
that. -/
theorem shown_of_parse {table : OperatorTable} {source : String} {nodes : List Node}
    {target : Option String} (parse : parseSource table source = .ok nodes)
    (given : target.isSome = true) (known : ∀ format ∈ target, format ∈ outputFormats) :
    if target ≠ some "repr" ∧ Node.Overflows nodes then
      ∃ fault, Job.shown target nodes = .error fault ∧ JobFault.HasStatus (.transpile fault) 2
    else ∃ text, Job.shown target nodes = .ok text := by
  obtain ⟨concrete, unsigned⟩ := Node.concrete_of_program (readable_of_parse parse)
  have overflows : Node.Overflows nodes ↔ .infinite false ∈ nodes.flatMap Node.literals := by
    constructor
    · rintro ⟨negative, member⟩
      obtain rfl : negative = false := (unsigned _ member).1
      exact member
    · exact fun member => ⟨false, member⟩
  have plain := transpile_source concrete unsigned
  have records := transpile_json concrete unsigned
  obtain ⟨format, rfl⟩ := Option.isSome_iff_exists.mp given
  have listed := known format rfl
  simp only [outputFormats, List.mem_cons, List.not_mem_nil, or_false] at listed
  rcases listed with rfl | rfl | rfl
  · rw [if_neg fun both => both.1 rfl]
    exact ⟨_, rfl⟩
  · have shown : Job.shown (some "source") nodes = Target.source.transpile nodes := rfl
    rw [shown]
    split
    · next both =>
      rw [if_pos (overflows.mp both.2)] at plain
      exact ⟨_, plain, rfl, by simp⟩
    · next other =>
      rwa [if_neg fun member => other ⟨by decide, overflows.mpr member⟩] at plain
  · have shown : Job.shown (some "json") nodes = Target.json.transpile nodes := rfl
    rw [shown]
    split
    · next both =>
      rw [if_pos (overflows.mp both.2)] at records
      exact ⟨_, records, rfl, by simp⟩
    · next other =>
      rwa [if_neg fun member => other ⟨by decide, overflows.mpr member⟩] at records

/-- A session in a folder: how it ends, and the folder behind it. -/
def sessionIn (folder : Folder) (argv : List String) : Except BreakOff SessionResult × Folder :=
  ((runSession Folder.access argv).run folder).run

namespace Options

variable {options : Options} {folder : Folder}

/-- The source text: the words, or what a file of the right ending holds. -/
def sourceText? (options : Options) (folder : Folder) : Option String :=
  match options.filePath? with
  | none => some (String.intercalate " " options.source)
  | some path =>
    if ['.', 'k', 's'] <:+ path.toList then
      match (folder.read path).bind decodeText with
      | .ok text => some text
      | .error _ => none
    else none

/-- The path of the output file; an empty one is none. -/
def outPath? (options : Options) : Option String := options.out.filter (· ≠ "")

def outOpens (options : Options) (folder : Folder) : Bool :=
  match options.outPath? with
  | none => true
  | some path => (folder.opens? path).isSome

/-- The status that a session must end with. -/
def dueStatus (options : Options) (folder : Folder) : Nat :=
  if options.filePath?.isSome = true ↔ options.source ≠ [] then 2
  else match options.sourceText? folder with
    | none => 2
    | some source => match OperatorTable.ofEntries options.operatorEntries with
      | .error _ => 2
      | .ok table => match parseSource table source with
        | .error _ => 1
        | .ok nodes =>
          if options.target ≠ some "repr" ∧ Node.Overflows nodes then 2
          else if options.outOpens folder then 0
          else 2

/-- The text that the source leads to in the output format. -/
def Emits (options : Options) (folder : Folder) (text : String) : Prop :=
  ∃ source table nodes, options.sourceText? folder = some source ∧
    OperatorTable.ofEntries options.operatorEntries = .ok table ∧
    parseSource table source = .ok nodes ∧ Job.shown options.target nodes = .ok text

/-- A text and a line feed have gone to the output file or, if there is none, to the standard
output, and to no other place. -/
def Delivers (options : Options) (folder : Folder) (text stdout : String) (later : Folder) : Prop :=
  match options.outPath? with
  | none => stdout = text ++ "\n" ∧ later = folder
  | some path => stdout = "" ∧ ∃ entry, folder.opens? path = some entry ∧
    folder.HasPut entry (Utf8.encode (text ++ "\n").toList) later

/-- How a session ends that was begun in a folder. -/
structure Ends (options : Options) (folder : Folder) (due : Nat) (r : SessionResult)
    (later : Folder) : Prop where
  status : r.status = due
  success : due = 0 → ∃ text, options.Emits folder text ∧
    options.Delivers folder text r.stdout later
  failure : due ≠ 0 → r.stdout = "" ∧ later = folder

/-- Neither an operator nor the target was given without a value. -/
structure IsValued (options : Options) : Prop where
  operators : ∀ operator ∈ options.operators, operator.isSome = true
  target : options.target.isSome = true

/-- The job of options that name one source. -/
def job (options : Options) : Job where
  source := options.filePath?.getD (String.intercalate " " options.source)
  isFile := options.filePath?.isSome
  format := options.target
  out := options.out
  operators := options.operatorEntries

theorem job_of_one (one : ¬ (options.filePath?.isSome = true ↔ options.source ≠ [])) :
    options.job? = .ok (some options.job) := by
  unfold job? job
  cases file : options.filePath? with
  | none =>
    cases words : options.source with
    | nil => simp [file, words] at one
    | cons => rfl
  | some path =>
    cases words : options.source with
    | nil => rfl
    | cons => simp [file, words] at one

theorem input_of_text {source : String} (found : options.sourceText? folder = some source) :
    options.job.inputIn folder = .ok source := by
  unfold sourceText? at found
  unfold Job.inputIn Job.sourcePath? job
  cases file : options.filePath? with
  | none =>
    rw [file] at found
    exact congrArg Except.ok (Option.some.inj found)
  | some path =>
    rw [file] at found
    dsimp only at found
    split at found
    · next suffix =>
      split at found
      · next read =>
        obtain rfl := Option.some.inj found
        simp [(Job.endsWith_iff path).mpr suffix, read, Except.mapError]
      · cases found
    · cases found

theorem input_of_none (unfound : options.sourceText? folder = none) :
    ∃ fault, options.job.inputIn folder = .error fault ∧ fault.HasStatus 2 := by
  unfold sourceText? at unfound
  unfold Job.inputIn Job.sourcePath? job
  cases file : options.filePath? with
  | none =>
    rw [file] at unfound
    cases unfound
  | some path =>
    rw [file] at unfound
    dsimp only at unfound
    split at unfound
    · next suffix =>
      split at unfound
      · cases unfound
      · next fault read =>
        refine ⟨.file fault, ?_, rfl, by simp⟩
        simp [(Job.endsWith_iff path).mpr suffix, read, Except.mapError]
    · next other =>
      refine ⟨.notASourceFile, ?_, rfl, by simp⟩
      simp [mt (Job.endsWith_iff path).mp other]

/-- A session whose job fails before anything is written. -/
theorem ends_failed {fault : JobFault} {due : Nat} {log : List LogEntry}
    (known : fault.HasStatus due) (failure : due ≠ 0)
    (run : options.job.runIn folder = (⟨.error fault, "", log⟩, folder)) :
    ∃ r, (options.job.runIn folder).1.close options.verbose = .ok r ∧
      options.Ends folder due r (options.job.runIn folder).2 := by
  rw [run]
  refine ⟨⟨fault.status, "", JobResult.report options.verbose ⟨.error fault, "", log⟩⟩, ?_,
    known.status, fun same => absurd same failure, fun _ => ⟨rfl, rfl⟩⟩
  unfold JobResult.close
  split
  · next same => exact absurd (Except.error.inj same) known.closes
  · rfl

/-- A session whose job comes to write its text. -/
theorem ends_written {source text : String} {log : List LogEntry}
    (found : options.job.inputIn folder = .ok source)
    (composed : options.job.compose source = (.ok text, log)) (emits : options.Emits folder text) :
    ∃ r, (options.job.runIn folder).1.close options.verbose = .ok r ∧
      options.Ends folder (if options.outOpens folder then 0 else 2) r
        (options.job.runIn folder).2 := by
  cases out : options.outPath? with
  | none =>
    have opens : options.outOpens folder = true := by rw [outOpens, out]
    rw [Job.run_printed found composed out, if_pos opens]
    refine ⟨_, rfl, rfl, fun _ => ⟨text, emits, ?_⟩, fun failed => absurd rfl failed⟩
    rw [Delivers, out]
    exact ⟨rfl, rfl⟩
  | some path =>
    have opens : options.outOpens folder = (folder.opens? path).isSome := by rw [outOpens, out]
    cases opened : folder.opens? path with
    | none =>
      obtain ⟨fault, run⟩ := Job.run_unwritten found composed out opened
      rw [if_neg (by simp [opens, opened])]
      exact ends_failed ⟨rfl, by simp⟩ (by decide) run
    | some entry =>
      rw [Job.run_written found composed out opened, if_pos (by simp [opens, opened])]
      refine ⟨_, rfl, rfl, fun _ => ⟨text, emits, ?_⟩, fun failed => absurd rfl failed⟩
      rw [Delivers, out]
      exact ⟨rfl, entry, opened, Folder.hasPut_put folder entry _⟩

/-- How a session ends whose job is carried out. -/
theorem ends_job (format : options.HasFormat) (valued : options.IsValued)
    (one : ¬ (options.filePath?.isSome = true ↔ options.source ≠ [])) :
    ∃ r, (options.job.runIn folder).1.close options.verbose = .ok r ∧
      options.Ends folder (options.dueStatus folder) r (options.job.runIn folder).2 := by
  -- One stage after the other: the first that fails has ended the job with the status that is due.
  unfold dueStatus
  rw [if_neg one]
  cases input : options.sourceText? folder with
  | none =>
    obtain ⟨fault, failed, known⟩ := input_of_none input
    exact ends_failed known (by simp) (Job.run_unfound failed)
  | some source =>
    have found := input_of_text input
    dsimp only
    cases entries : OperatorTable.ofEntries options.operatorEntries with
    | error fault =>
      obtain ⟨log, composed⟩ := Job.compose_table options.job source entries
      exact ends_failed ⟨rfl, by simp⟩ (by simp) (Job.run_refused found composed)
    | ok table =>
      dsimp only
      cases parse : parseSource table source with
      | error fault =>
        obtain ⟨log, composed⟩ := Job.compose_parse options.job entries parse
        exact ends_failed ⟨status_of_parse parse, by simp⟩ (by simp)
          (Job.run_refused found composed)
      | ok nodes =>
        dsimp only
        obtain ⟨log, composed⟩ := Job.compose_shown options.job entries parse
        have same : options.job.format = options.target := rfl
        have shown := shown_of_parse parse valued.target format
        rw [same] at composed
        split at shown
        · next overflows =>
          obtain ⟨fault, failed, known⟩ := shown
          rw [failed] at composed
          rw [if_pos overflows]
          exact ends_failed known (by decide) (Job.run_refused found composed)
        · next fine =>
          obtain ⟨text, written⟩ := shown
          rw [written] at composed
          rw [if_neg fine]
          exact ends_written found composed ⟨source, table, nodes, input, entries, parse, written⟩

/-- A session without source, or with words and a file, is refused at once. -/
theorem ends_ambiguous (argv : List String) (accepted : Options.read argv = .ok (.options options))
    (ambiguous : options.filePath?.isSome = true ↔ options.source ≠ []) :
    ∃ r, sessionIn folder argv = (.ok r, folder) ∧ r.status = 2 ∧ r.stdout = "" := by
  cases file : options.filePath? with
  | none =>
    have words : options.source = [] := by simpa [file] using ambiguous
    have job : options.job? = .ok none := by rw [job?, file, words]
    simp only [sessionIn, runSession, accepted, job]
    exact ⟨_, rfl, rfl, rfl⟩
  | some path =>
    obtain ⟨word, words, source⟩ := List.exists_cons_of_ne_nil (ambiguous.mp (by simp [file]))
    have job : options.job? = .error .sourceAndFile := by rw [job?, file, source]
    simp only [sessionIn, runSession, accepted, job]
    exact ⟨_, rfl, rfl, rfl⟩

end Options

/-- A session whose options all have their values ends with the status that is due. The text goes to
one place if that is 0; else nothing is printed and no file is changed. -/
theorem session_ends (argv : List String) (folder : Folder) (options : Options)
    (accepted : Options.read argv = .ok (.options options)) (valued : options.IsValued) :
    ∃ r later, sessionIn folder argv = (.ok r, later) ∧
      options.Ends folder (options.dueStatus folder) r later := by
  by_cases one : options.filePath?.isSome = true ↔ options.source ≠ []
  · obtain ⟨r, ended, status, silent⟩ := Options.ends_ambiguous argv accepted one
    have due : options.dueStatus folder = 2 := if_pos one
    rw [due]
    exact ⟨r, folder, ended, status, fun same => absurd same (by decide), fun _ => ⟨silent, rfl⟩⟩
  · obtain ⟨r, closed, ends⟩ := Options.ends_job (Options.format_of_read accepted) valued one
    have filled : options.emptyOperator? = none := by
      rw [Options.emptyOperator?, List.findIdx?_eq_none_iff]
      intro operator member
      simp [valued.operators operator member]
    have carried : sessionIn folder argv =
        ((options.job.runIn folder).1.close options.verbose, (options.job.runIn folder).2) := by
      simp only [sessionIn, runSession, accepted, Options.job_of_one one, filled]
      rfl
    exact ⟨r, _, by rw [carried, closed], ends⟩

/-- A session that writes a file. -/
theorem session_ends_written :
    let options : Options := { source := ["x"], out := some "a" }
    Options.read ["-o", "a", "x"] = .ok (.options options) ∧ options.IsValued ∧
      options.dueStatus ⟨[]⟩ = 0 ∧ ∃ r later, sessionIn ⟨[]⟩ ["-o", "a", "x"] = (.ok r, later) ∧
        options.Ends ⟨[]⟩ 0 r later := by
  intro options
  have accepted : Options.read ["-o", "a", "x"] = .ok (.options options) := rfl
  have valued : options.IsValued := ⟨by simp [options], rfl⟩
  have pieces : Decomposes [] "x".toList _ :=
    .lexeme (@IsLexeme.word 'x' [] [] (by decide) (by simp) (by simp)) .ends
  have parse : parseSource .default "x" = .ok [.bare (.reference "x")] := by
    rw [parseSource, tokenize_of_decomposes pieces]
    rfl
  have due : options.dueStatus ⟨[]⟩ = 0 := by
    change (match parseSource .default "x" with
      | .error _ => 1
      | .ok nodes =>
        if options.target ≠ some "repr" ∧ Node.Overflows nodes then 2
        else if options.outOpens ⟨[]⟩ then 0
        else 2) = 0
    rw [parse]
    rfl
  obtain ⟨r, later, ended, ends⟩ := session_ends ["-o", "a", "x"] ⟨[]⟩ options accepted valued
  rw [due] at ends
  exact ⟨accepted, valued, due, r, later, ended, ends⟩

/-- An operator without value is accepted, and breaks the session off that should end with 2. -/
theorem session_breaks_off :
    let options : Options := { file := some "x.txt", operators := [none] }
    Options.read ["-f", "x.txt", "--op=--"] = .ok (.options options) ∧
      options.dueStatus ⟨[]⟩ = 2 ∧
      ¬ ∃ r later, sessionIn ⟨[]⟩ ["-f", "x.txt", "--op=--"] = (.ok r, later) := by
  refine ⟨rfl, rfl, ?_⟩
  rintro ⟨r, later, ended⟩
  have broken : (sessionIn ⟨[]⟩ ["-f", "x.txt", "--op=--"]).1 = .error (.emptyOperator 0) := rfl
  rw [ended] at broken
  cases broken

end Formulary
