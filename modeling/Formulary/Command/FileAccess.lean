import Formulary.Number.Spelling
import Formulary.Text.Hex
import Formulary.Text.LineEnd
import Formulary.Text.Quoted
import Formulary.Text.Utf8

/-!
Access to files: what reading and writing may be refused for, how the two are offered, and the
text of a file that has been read.
-/
namespace Formulary

inductive PathFault where
  | noEntry
  | notDirectory
  | isDirectory
  | nameTooLong
  /-- Whatever else a system refuses, with its number there. -/
  | refused (code : Nat) (reason : String)
  deriving DecidableEq, Repr

inductive FileFault where
  /-- A path that holds the character zero. -/
  | zeroInPath
  | access (fault : PathFault) (path : String)
  | undecodable (fault : Utf8.DecodeFault)
  deriving DecidableEq, Repr

def PathFault.message : PathFault → String
  | .noEntry => "[Errno 2] No such file or directory"
  | .notDirectory => "[Errno 20] Not a directory"
  | .isDirectory => "[Errno 21] Is a directory"
  | .nameTooLong => "[Errno 36] File name too long"
  | .refused code reason => "[Errno " ++ integerText code ++ "] " ++ reason

namespace Utf8

def Reason.message : Reason → String
  | .invalidStart => "invalid start byte"
  | .invalidContinuation => "invalid continuation byte"
  | .unexpectedEnd => "unexpected end of data"

def DecodeFault.message (e : DecodeFault) : String :=
  "'utf-8' codec can't decode " ++
    (if e.stop = e.start + 1 then
      "byte 0x" ++ String.ofList (hexText 2 e.lead.toNat) ++ " in position " ++ integerText e.start
    else "bytes in position " ++ integerText e.start ++ "-" ++ integerText (e.stop - 1)) ++
    ": " ++ e.reason.message

end Utf8

def FileFault.message : FileFault → String
  | .zeroInPath => "embedded null byte"
  | .access fault p => fault.message ++ ": " ++ quoted p
  | .undecodable fault => fault.message

/-- How the bytes of files are read and written, by the paths of the files. -/
structure FileAccess (m : Type → Type) where
  read : String → m (Except FileFault (List UInt8))
  write : String → List UInt8 → m (Except FileFault Unit)

/-- The text of a file's bytes. -/
def decodeText (bytes : List UInt8) : Except FileFault String :=
  match Utf8.decode bytes with
  | .ok text => .ok (String.ofList (joinLineEnds text))
  | .error fault => .error (.undecodable fault)

end Formulary
