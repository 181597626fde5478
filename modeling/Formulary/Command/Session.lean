import Formulary.Command.Job
import Formulary.Command.Options

/-!
A session of the command: its arguments, the files it has access to, and what it prints. The
status is 0 for success, 1 for source text that does not parse and 2 for everything else that is
refused. A session that comes to need a value which its option was not given breaks off without a
status.
-/
namespace Formulary

def usage : String :=
  "usage: kscope [-h] [-f PATH] [-t \x7brepr,source,json\x7d] [-o OUTFILE]\n" ++
  "              [--op SYM=PREC] [-v]\n" ++
  "              [source ...]\n"

def helpText : String :=
  usage ++ "\n" ++
  "positional arguments:\n" ++
  "  source                Source words, joined with spaces\n" ++
  "\n" ++
  "options:\n" ++
  "  -h, --help            show this help message and exit\n" ++
  "  -f PATH, --file PATH  Read source from a .ks file\n" ++
  "  -t \x7brepr,source,json\x7d, --target \x7brepr,source,json\x7d\n" ++
  "                        Output format (default: repr)\n" ++
  "  -o OUTFILE, --out OUTFILE\n" ++
  "                        Output to file\n" ++
  "  --op SYM=PREC         Add or override an operator precedence\n" ++
  "  -v, --verbose         Enable debug logging\n"

/-- The answer to a command line that is refused. -/
def refusal (fault : OptionFault) : String := usage ++ "kscope: error: " ++ fault.message ++ "\n"

structure SessionResult where
  status : Nat
  stdout : String
  stderr : String

/-- Why a session breaks off. -/
inductive BreakOff where
  /-- The operator option at this place, counted from zero, has no value. -/
  | emptyOperator (index : Nat)
  /-- The output format has no value. -/
  | emptyTarget
  deriving DecidableEq, Repr

def BreakOff.message : BreakOff → String
  | .emptyOperator index =>
    "dictionary update sequence element #" ++ integerText index ++ " has length 0; 2 is required"
  | .emptyTarget => "'list' object has no attribute 'strip'"

/-- The status of a job that failed. -/
def JobFault.status : JobFault → Nat
  | .transpile (.parse (.unexpectedToken _)) => 1
  | .transpile (.parse (.unknownOperator _)) => 1
  | .transpile (.parse .unexpectedEnd) => 1
  | _ => 2

namespace Options

/-- The path of the source file; an empty one is none. -/
def filePath? (options : Options) : Option String := options.file.filter (· ≠ "")

/-- The place of the first operator without value. -/
def emptyOperator? (options : Options) : Option Nat := options.operators.findIdx? (·.isNone)

/-- The default operators with those of the command line, in order, put in. -/
def operatorEntries (options : Options) : List (Scalar × Scalar) :=
  Assoc.putAll OperatorTable.defaultEntries
    ((options.operators.filterMap id).map fun (symbol, power) =>
      (.text (String.singleton symbol), .integer power))

/-- The job that options ask for, if there is a source: words or a file, and not both. -/
def job? (options : Options) : Except OptionFault (Option Job) :=
  match options.filePath?, options.source with
  | some _, _ :: _ => .error .sourceAndFile
  | none, [] => .ok none
  | file, words =>
    .ok (some {
      source := file.getD (String.intercalate " " words)
      isFile := file.isSome
      format := options.target
      out := options.out
      operators := options.operatorEntries })

end Options

/-- The lines on the standard error channel, for a job that has been carried out. -/
def JobResult.report (verbose : Bool) (r : JobResult) : String :=
  let notes := if verbose then r.log.map (·.line ++ "\n") else []
  let fault := match r.outcome with
    | .ok _ => ""
    | .error e => "error: " ++ e.message ++ "\n"
  String.join notes ++ fault

def JobResult.status (r : JobResult) : Nat :=
  match r.outcome with
  | .ok _ => 0
  | .error e => e.status

/-- How a session ends whose job has been carried out. -/
def JobResult.close (verbose : Bool) (r : JobResult) : Except BreakOff SessionResult :=
  match r.outcome with
  | .error (.transpile .noTarget) => .error .emptyTarget
  | _ => .ok ⟨r.status, r.stdout, r.report verbose⟩

/-- Runs the command. -/
def runSession {m : Type → Type} [Monad m] (files : FileAccess m) (argv : List String) :
    m (Except BreakOff SessionResult) :=
  match Options.read argv with
  | .error fault => return .ok ⟨2, "", refusal fault⟩
  | .ok .help => return .ok ⟨0, helpText, ""⟩
  | .ok (.options options) => match options.job?, options.emptyOperator? with
    | .error fault, _ => return .ok ⟨2, "", refusal fault⟩
    | .ok none, _ => return .ok ⟨2, "", usage⟩
    | .ok (some _), some index => return .error (.emptyOperator index)
    | .ok (some job), none => do return (← job.run files).close options.verbose

end Formulary
