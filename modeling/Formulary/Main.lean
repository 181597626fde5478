import Formulary.Command.Session

/-!
The command itself: its arguments, the files of the system and the standard channels.
-/
namespace Formulary

namespace PathFault

/-- A refusal by its number in the system, which some calls give below zero. -/
def ofCode (code : UInt32) (reason : String) : PathFault :=
  match min code.toNat (2 ^ 32 - code.toNat) with
  | 2 => .noEntry
  | 20 => .notDirectory
  | 21 => .isDirectory
  | 36 => .nameTooLong
  | code => .refused code reason

def ofError : IO.Error → PathFault
  | .noFileOrDirectory _ code reason => ofCode code reason
  | .inappropriateType _ code reason => ofCode code reason
  | .invalidArgument _ code reason => ofCode code reason
  | .permissionDenied _ code reason => ofCode code reason
  | e => .refused 5 (toString e)

end PathFault

namespace FileAccess

/-- What a call on a file answers, or what it is refused for. -/
def attempt {α : Type} (path : String) (call : IO α) : IO (Except FileFault α) := do
  if '\x00' ∈ path.toList then return .error .zeroInPath
  try return .ok (← call)
  catch e => return .error (.access (.ofError e) path)

/-- Access to the files of the system. -/
def ofSystem : FileAccess IO where
  read path := attempt path do return (← IO.FS.readBinFile path).toList
  write path bytes := attempt path (IO.FS.writeBinFile path ⟨bytes.toArray⟩)

end FileAccess

end Formulary

open Formulary in
def main (argv : List String) : IO UInt32 := do
  match ← runSession .ofSystem argv with
  | .error fault =>
    IO.eprintln fault.message
    return 1
  | .ok r =>
    IO.print r.stdout
    IO.eprint r.stderr
    return r.status.toUInt32
