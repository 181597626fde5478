import Formulary.Assoc
import Formulary.Command.FileAccess

/-!
A working folder: files by path, with their bytes. A folder exists as far as files lie in it. Paths
are resolved a component at a time; those that lead out of the working folder find the folders
around it, and in these only the files that were written there.
-/
namespace Formulary

/-- The names that lead to a file from the working folder. `..` stands first, as often as the path
leads outward, and an empty name stands first if it leads from the root. -/
abbrev Path := List String

namespace Path

/-- The folder around a folder; the root is its own. -/
def parent (path : Path) : Path :=
  match path.getLast? with
  | none | some ".." => path ++ [".."]
  | some "" => path
  | some _ => path.dropLast

/-- Whether a path stays in the working folder. -/
def isWithin (path : Path) : Bool := path.head? != some ".." && path.head? != some ""

end Path

structure Folder where
  files : List (Path × List UInt8)

namespace Folder

/-- The parts of a path between its slashes. -/
def components : List Char → List (List Char)
  | [] => [[]]
  | c :: rest =>
    if c = '/' then [] :: components rest
    else match components rest with
      | [] => [[c]]
      | part :: parts => (c :: part) :: parts

def contents? (folder : Folder) (path : Path) : Option (List UInt8) := folder.files.lookup path

/-- A folder that some file lies in. -/
def isDirectory (folder : Folder) (path : Path) : Bool :=
  folder.files.any fun file => path.isPrefixOf file.1 && path.length < file.1.length

/-- What a path leads to: a folder, or a name in a folder, which a file may have. -/
inductive Location where
  | directory
  | entry (path : Path)
  deriving DecidableEq, Repr

/-- The most bytes in a name. -/
def nameLimit : Nat := 255

/-- The bytes from which on a path is too long. -/
def pathLimit : Nat := 4096

def isLongName (name : String) : Bool := nameLimit < name.utf8ByteSize

/-- Follows components from a folder. -/
def locateFrom (folder : Folder) (here : Path) : List String → Except PathFault Location
  | [] => .ok .directory
  | name :: later =>
    let path := here ++ [name]
    if name = "" ∨ name = "." then locateFrom folder here later
    else if name = ".." then locateFrom folder here.parent later
    else if folder.isDirectory path then locateFrom folder path later
    else if later = [] then .ok (.entry path)
    else if isLongName name then .error .nameTooLong
    else if (folder.contents? path).isSome then .error .notDirectory
    else .error .noEntry

def endsWithSlash (path : String) : Bool := path.toList.getLast? = some '/'

/-- Follows a path. Slashes at its end leave its last name the last component. -/
def locate (folder : Folder) (path : String) : Except PathFault Location :=
  let parts := (components path.toList).map String.ofList
  let named := (parts.reverse.dropWhile (· = "")).reverse
  if pathLimit ≤ path.utf8ByteSize then .error .nameTooLong
  else if path = "" then .error .noEntry
  else folder.locateFrom (if parts.head? = some "" then [""] else []) named

/-- The bytes that a path leads to. -/
def bytesAt (folder : Folder) (path : String) : Except PathFault (List UInt8) := do
  match ← folder.locate path with
  | .directory => throw .isDirectory
  | .entry entry =>
    if entry.any isLongName then throw .nameTooLong
    else match folder.contents? entry with
      | none => throw .noEntry
      | some bytes => if endsWithSlash path then throw .notDirectory else return bytes

/-- The bytes of a file. -/
def read (folder : Folder) (path : String) : Except FileFault (List UInt8) :=
  if '\x00' ∈ path.toList then .error .zeroInPath
  else (folder.bytesAt path).mapError (.access · path)

/-- The file that is written by a path. -/
def entryFor (folder : Folder) (path : String) : Except PathFault Path := do
  match ← folder.locate path with
  | .directory => throw .isDirectory
  | .entry entry =>
    if endsWithSlash path then throw .isDirectory
    else if entry.any isLongName then throw .nameTooLong
    else return entry

/-- Writes a file, in place of its former contents if it is there already. -/
def write (folder : Folder) (path : String) (bytes : List UInt8) : Except FileFault Folder :=
  if '\x00' ∈ path.toList then .error .zeroInPath
  else match folder.entryFor path with
    | .error fault => .error (.access fault path)
    | .ok entry => .ok ⟨Assoc.put entry bytes folder.files⟩

/-- Access to the files of a folder. -/
def access : FileAccess (StateM Folder) where
  read path := modifyGet fun folder => (folder.read path, folder)
  write path bytes := modifyGet fun folder =>
    match folder.write path bytes with
    | .ok later => (.ok (), later)
    | .error fault => (.error fault, folder)

end Folder

end Formulary

