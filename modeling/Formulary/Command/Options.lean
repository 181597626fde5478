import Formulary.Command.OperatorSpec
import Formulary.Text.Digit

/-!
The command line. Long options may be shortened as long as they stay unambiguous. A value follows
its option as the next word, after an equals sign, or for a short option directly; short options
without value may be joined, before one with a value too. Words that are no options form one run;
a later run is left over. After two dashes every word is no option, and two dashes attached to an
option give it no value.
-/
namespace Formulary

inductive Flag where
  | help
  | file
  | target
  | out
  | operator
  | verbose
  deriving DecidableEq, Repr

namespace Flag

/-- The spellings of all options, in the order in which they are listed. -/
def spellings : List (String × Flag) :=
  [("-h", .help), ("--help", .help), ("-f", .file), ("--file", .file), ("-t", .target),
    ("--target", .target), ("-o", .out), ("--out", .out), ("--op", .operator), ("-v", .verbose),
    ("--verbose", .verbose)]

def takesValue : Flag → Bool
  | .help | .verbose => false
  | .file | .target | .out | .operator => true

/-- All spellings of an option, as errors name it. -/
def title (flag : Flag) : String :=
  String.intercalate "/" ((spellings.filter (·.2 == flag)).map (·.1))

end Flag

/-- The names of the output formats. -/
def outputFormats : List String := ["repr", "source", "json"]

/-- Why a command line is refused. -/
inductive OptionFault where
  | ambiguous (word : String) (matching : List String)
  | missingValue (flag : Flag)
  | unwantedValue (flag : Flag) (value : String)
  | invalidChoice (flag : Flag) (value : String)
  | invalidSpec (flag : Flag) (fault : SpecFault)
  | leftOver (words : List String)
  | sourceAndFile
  deriving DecidableEq, Repr

def OptionFault.message : OptionFault → String
  | .ambiguous word matching =>
    "ambiguous option: " ++ word ++ " could match " ++ String.intercalate ", " matching
  | .missingValue flag => "argument " ++ flag.title ++ ": expected one argument"
  | .unwantedValue flag value =>
    "argument " ++ flag.title ++ ": ignored explicit argument " ++ quoted value
  | .invalidChoice flag value =>
    "argument " ++ flag.title ++ ": invalid choice: " ++ quoted value ++ " (choose from " ++
      String.intercalate ", " (outputFormats.map quoted) ++ ")"
  | .invalidSpec flag fault => "argument " ++ flag.title ++ ": " ++ fault.message
  | .leftOver words => "unrecognized arguments: " ++ String.intercalate " " words
  | .sourceAndFile => "give either source words or --file, not both"

/-- What options ask for. One that was given no value has none here. -/
structure Options where
  source : List String := []
  file : Option String := none
  target : Option String := some "repr"
  out : Option String := none
  operators : List (Option (Char × Int)) := []
  verbose : Bool := false
  deriving DecidableEq, Repr

inductive Word where
  | plain (text : String)
  /-- Two dashes. -/
  | divider
  /-- An option, and what is attached to it in its word. -/
  | known (flag : Flag) (isLong : Bool) (attached : Option String)
  | unknown (text : String)
  deriving DecidableEq, Repr

namespace Word

/-- What stands before the first equals sign, and what after it. -/
def splitEquals (word : List Char) : String × Option String :=
  match word.dropWhile (· != '=') with
  | _ :: value => (String.ofList (word.takeWhile (· != '=')), some (String.ofList value))
  | [] => (String.ofList word, none)

/-- A minus sign and digits, with a point before the last of them or without; a line feed may
end the word. -/
def isNegativeNumber (word : List Char) : Bool :=
  let body := if word.getLast? = some '\n' then word.dropLast else word
  match body with
  | '-' :: digits =>
    match digits.dropWhile isDigit with
    | [] => !digits.isEmpty
    | '.' :: fraction => !fraction.isEmpty && fraction.all isDigit
    | _ => false
  | _ => false

/-- A word that is no known option is still none at all if it is a negative number or holds a
space. -/
def unmatched (word : String) : Word :=
  if isNegativeNumber word.toList || word.toList.contains ' ' then .plain word else .unknown word

/-- Long options may be shortened. -/
def ofLong (word : String) : Except OptionFault Word :=
  let (name, attached) := splitEquals word.toList
  match Flag.spellings.filter (name.toList.isPrefixOf ·.1.toList) with
  | [] => .ok (unmatched word)
  | [(_, flag)] => .ok (.known flag true attached)
  | several => .error (.ambiguous word (several.map (·.1)))

/-- A short option may be followed by its value or by more short options. -/
def ofShort (word : String) : Word :=
  match Flag.spellings.lookup (String.ofList (word.toList.take 2)) with
  | some flag => .known flag false (some (String.ofList (word.toList.drop 2)))
  | none => unmatched word

def classify (word : String) : Except OptionFault Word :=
  match word.toList with
  | '-' :: second :: _ =>
    match Flag.spellings.lookup word with
    | some flag => .ok (.known flag (second == '-') none)
    | none =>
      let (name, attached) := splitEquals word.toList
      match attached, Flag.spellings.lookup name with
      | some value, some flag => .ok (.known flag (second == '-') (some value))
      | _, _ => if second = '-' then ofLong word else .ok (ofShort word)
  | _ => .ok (.plain word)

def classifyAll : List String → Except OptionFault (List Word)
  | [] => .ok []
  | word :: words =>
    if word = "--" then .ok (.divider :: words.map .plain)
    else do return (← classify word) :: (← classifyAll words)

end Word

/-- What a command line asks for. -/
inductive Parsed where
  | help
  | options (options : Options)
  deriving DecidableEq, Repr

namespace Options

/-- An option that is asked for, and its value if it was given one. -/
abbrev Use := Flag × Option String

/-- Carries out an option; asking for help ends everything. -/
def apply (options : Options) : Use → Except OptionFault (Option Options)
  | (.help, _) => .ok none
  | (.file, value) => .ok (some { options with file := value })
  | (.target, some value) =>
    if outputFormats.contains value then .ok (some { options with target := some value })
    else .error (.invalidChoice .target value)
  | (.target, none) => .ok (some { options with target := none })
  | (.out, value) => .ok (some { options with out := value })
  | (.operator, some value) =>
    match readOperatorSpec value with
    | .ok entry => .ok (some { options with operators := options.operators ++ [some entry] })
    | .error fault => .error (.invalidSpec .operator fault)
  | (.operator, none) => .ok (some { options with operators := options.operators ++ [none] })
  | (.verbose, _) => .ok (some { options with verbose := true })

/-- The options joined in one word, and the last of them if it needs a value that is still to
come. -/
structure Group where
  uses : List Use := []
  awaiting : Option Flag := none

/-- An option to which nothing is attached. -/
def Group.single (flag : Flag) : Group :=
  if flag.takesValue then { awaiting := some flag } else { uses := [(flag, none)] }

def Group.before (group : Group) (flag : Flag) : Group :=
  { group with uses := (flag, none) :: group.uses }

/-- The value that is attached to an option. -/
def attachedValue (text : List Char) : Option String :=
  if text = ['-', '-'] then none else some (String.ofList text)

/-- Takes apart what is attached to an option: its value, or if it takes none and is short, more
short options. -/
def ungroup (flag : Flag) (isLong : Bool) (text : List Char) : Except OptionFault Group :=
  if flag.takesValue then .ok { uses := [(flag, attachedValue text)] }
  else match text with
    | [] => .error (.unwantedValue flag "")
    | c :: rest =>
      if isLong then .error (.unwantedValue flag (String.ofList text))
      else match Flag.spellings.lookup (String.ofList ['-', c]) with
        | none => .error (.unwantedValue flag (String.ofList text))
        | some next =>
          if rest = [] then .ok ((Group.single next).before flag)
          else do return (← ungroup next false rest).before flag

/-- Carries out options in order. -/
def applyAll (options : Options) : List Use → Except OptionFault (Option Options)
  | [] => .ok (some options)
  | use :: uses =>
    match options.apply use with
    | .ok (some options) => applyAll options uses
    | other => other

/-- Whether the one run of words has been met. -/
inductive Run where
  | ahead
  | inside
  | behind
  deriving DecidableEq, Repr

/-- The state of reading a command line: the options so far, the options of a word whose last one
awaits its value, and the words left over. -/
structure Progress where
  options : Options := {}
  run : Run := .ahead
  awaiting : Option (List Use × Flag) := none
  leftOver : List String := []

namespace Progress

/-- A word that is no option is a value, part of the run or left over. -/
def takePlain (p : Progress) (word : String) : Except OptionFault (Option Progress) :=
  match p.awaiting with
  | some (uses, flag) => do
    let options ← p.options.applyAll (uses ++ [(flag, some word)])
    return options.map fun options => { p with options := options, awaiting := none }
  | none =>
    if p.run = .behind then .ok (some { p with leftOver := p.leftOver ++ [word] })
    else
      .ok (some { p with
        options := { p.options with source := p.options.source ++ [word] }, run := .inside })

/-- An option ends the run of words. -/
def takeGroup (p : Progress) (group : Group) : Except OptionFault (Option Progress) :=
  let p : Progress := { p with run := if p.run = .inside then .behind else p.run }
  match group.awaiting with
  | some flag => .ok (some { p with awaiting := some (group.uses, flag) })
  | none => do
    let options ← p.options.applyAll group.uses
    return options.map fun options => { p with options := options }

/-- Reads a word; nothing is left to do after a request for help. -/
def take (p : Progress) (word : Word) : Except OptionFault (Option Progress) :=
  match word, p.awaiting with
  | .plain word, _ => p.takePlain word
  | _, some (_, flag) => .error (.missingValue flag)
  | .divider, none =>
    if p.run = .behind then .ok (some { p with leftOver := p.leftOver ++ ["--"] })
    else .ok (some { p with run := .inside })
  | .unknown text, none => { p with leftOver := p.leftOver ++ [text] }.takeGroup {}
  | .known flag _ none, none => p.takeGroup (.single flag)
  | .known flag isLong (some attached), none => do
    p.takeGroup (← ungroup flag isLong attached.toList)

def takeAll (p : Progress) : List Word → Except OptionFault (Option Progress)
  | [] => match p.awaiting with
    | some (_, flag) => .error (.missingValue flag)
    | none => .ok (some p)
  | word :: words => do
    match ← p.take word with
    | some p => takeAll p words
    | none => return none

end Progress

/-- Reads a command line. -/
def read (argv : List String) : Except OptionFault Parsed := do
  match ← Progress.takeAll {} (← Word.classifyAll argv) with
  | none => return .help
  | some p => if p.leftOver = [] then return .options p.options else throw (.leftOver p.leftOver)

end Options

end Formulary
