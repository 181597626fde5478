import Formulary.Command.FileAccess
import Formulary.Transpile

/-!
A job reads a source text, parses it and shows the result in an output format. Whatever can be
refused is refused before anything is written.
-/
namespace Formulary

structure Job where
  /-- The source text, or the path of the file that holds it. -/
  source : String
  isFile : Bool := false
  /-- The name of the output format; that there is none is noticed when output is to be made. -/
  format : Option String := some "repr"
  out : Option String := none
  /-- The entries of the operator table. -/
  operators : List (Scalar × Scalar) := OperatorTable.defaultEntries

inductive JobFault where
  /-- A source file whose name has another ending than `.ks`. -/
  | notASourceFile
  | file (fault : FileFault)
  | table (fault : TableFault)
  | transpile (fault : TranspileFault)
  deriving DecidableEq, Repr

def JobFault.message : JobFault → String
  | .notASourceFile => "Only .ks files are supported."
  | .file fault => fault.message
  | .table fault => fault.message
  | .transpile fault => fault.message

/-- What a job notes about its progress. -/
inductive LogEntry where
  | tokenized (count : Nat)
  | parsedItem (kind : NodeKind)
  | parsed (count : Nat)
  | wrote (path : String)
  deriving DecidableEq, Repr

def LogEntry.line : LogEntry → String
  | .tokenized count => "DEBUG kscope.kscope_cli: tokenized " ++ integerText count ++ " tokens"
  | .parsedItem kind => "DEBUG kscope.kscope_parser: parsed top-level " ++ kind.tag
  | .parsed count => "DEBUG kscope.kscope_cli: parsed " ++ integerText count ++ " top-level nodes"
  | .wrote path => "INFO kscope.kscope_cli: wrote " ++ path

namespace Job

/-- The path of the source file, if there is one. -/
def sourcePath? (job : Job) : Except JobFault (Option String) :=
  if !job.isFile then .ok none
  else if job.source.toList.reverse.take 3 = ['s', 'k', '.'] then .ok (some job.source)
  else .error .notASourceFile

/-- The path of the output file; an empty one is none. -/
def outPath? (job : Job) : Option String := job.out.filter (· ≠ "")

/-- The nodes of a program in an output format. -/
def shown (format : Option String) (nodes : List Node) : Except TranspileFault String :=
  match format with
  | none => .error .noTarget
  | some "repr" => .ok (String.intercalate "\n" (nodes.map Node.display))
  | some name => do (← Target.ofName name).transpile nodes

/-- The text that a source text leads to, and the notes taken on the way. -/
def compose (job : Job) (source : String) : Except JobFault String × List LogEntry :=
  let tokens := tokenize source
  let tokenized := LogEntry.tokenized tokens.length
  match OperatorTable.ofEntries job.operators with
  | .error fault => (.error (.table fault), [tokenized])
  | .ok table => match (parseTokens table tokens).1 with
    | .error e =>
      (.error (.transpile (.parse e.fault)), tokenized :: e.items.map (.parsedItem ·.kind))
    | .ok nodes =>
      ((shown job.format nodes).mapError .transpile,
        tokenized :: nodes.map (.parsedItem ·.kind) ++ [.parsed nodes.length])

end Job

/-- What a job leaves behind: its text or fault, what it printed and the notes. -/
structure JobResult where
  outcome : Except JobFault String
  stdout : String
  log : List LogEntry

namespace Job

variable {m : Type → Type} [Monad m]

/-- Finds the source text. -/
def input (files : FileAccess m) (job : Job) : m (Except JobFault String) :=
  match job.sourcePath? with
  | .error fault => return .error fault
  | .ok none => return .ok job.source
  | .ok (some path) => do return ((← files.read path).bind decodeText).mapError .file

/-- Puts a text where it belongs: in the output file, or else on the standard output. -/
def deliver (files : FileAccess m) (job : Job) (text : String) (log : List LogEntry) :
    m JobResult :=
  match job.outPath? with
  | none => return ⟨.ok text, text ++ "\n", log⟩
  | some path => do
    match ← files.write path (Utf8.encode (text ++ "\n").toList) with
    | .ok () => return ⟨.ok text, "", log ++ [.wrote path]⟩
    | .error fault => return ⟨.error (.file fault), "", log⟩

/-- Carries out a job. -/
def run (files : FileAccess m) (job : Job) : m JobResult := do
  match ← job.input files with
  | .error fault => return ⟨.error fault, "", []⟩
  | .ok source => match job.compose source with
    | (.error fault, log) => return ⟨.error fault, "", log⟩
    | (.ok text, log) => job.deliver files text log

end Job

end Formulary
