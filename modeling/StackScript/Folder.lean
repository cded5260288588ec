import StackScript.Host

/-!
Files by path: why one cannot be read, how its bytes become lines, and folders described by the
files in them, in which a path is followed name by name.
-/
namespace StackScript

inductive Trouble where
  | missing
  | notFolder
  | isFolder
  | nameTooLong
  | nulInPath
  | notText
  | other (text : String)
  deriving DecidableEq, Repr

namespace Trouble

def text : Trouble → String
  | .missing => "No such file or directory (os error 2)"
  | .notFolder => "Not a directory (os error 20)"
  | .isFolder => "Is a directory (os error 21)"
  | .nameTooLong => "File name too long (os error 36)"
  | .nulInPath => "file name contained an unexpected NUL byte"
  | .notText => "stream did not contain valid UTF-8"
  | .other text => text

def fault (trouble : Trouble) (path : String) : Fault :=
  .ofSystem (trouble = .missing) (path ++ ": " ++ trouble.text)

end Trouble

def fileLines (bytes : ByteArray) : Except Trouble (List String) :=
  match String.fromUTF8? bytes with
  | some text => .ok (Text.lines text)
  | none => .error .notText

/-- Files with the names that lead to each from the folder. Where the folder has a name, relative
paths are joined to it; without one the system follows them from the folder as they are. -/
structure Folder where
  files : List (List String × ByteArray)
  name : Option String := none

namespace Folder

abbrev Position := Option (List String)

def file? (folder : Folder) : Position → Option ByteArray
  | some names => folder.files.lookup names
  | none => none

def holds (folder : Folder) (names : List String) : Bool :=
  names.isEmpty || folder.files.any fun (file, _) => names.isPrefixOf file

def follow (folder : Folder) (position : Position) (name : String) : Except Trouble Position :=
  if (folder.file? position).isSome then .error .notFolder
  else if name = "" || name = "." then .ok position
  else if name = ".." then
    .ok (position.bind fun names => if names.isEmpty then none else some names.dropLast)
  else if 255 < name.utf8ByteSize then .error .nameTooLong
  else
    match position.map (· ++ [name]) with
    | some names => if folder.holds names then .ok (some names) else .error .missing
    | none => .error .missing

def names (path : String) : List String :=
  (path.toList.splitOn '/').map String.ofList

def longest : Nat := 4095

def fullPath (folder : Folder) (path : String) : String :=
  match folder.name with
  | some name => if path.startsWith "/" then path else name ++ "/" ++ path
  | none => path

/-- The bytes of the file at a path. The empty path means the folder itself where paths are joined to
its name, and nothing otherwise. -/
def bytes (folder : Folder) (path : String) : Except Trouble ByteArray := do
  if path.toList.contains '\x00' then throw .nulInPath
  if longest < (folder.fullPath path).utf8ByteSize then throw .nameTooLong
  if (folder.fullPath path).isEmpty then throw .missing
  let start : Position := if path.startsWith "/" then none else some []
  let position ← (names path).foldlM folder.follow start
  match folder.file? position with
  | some bytes => return bytes
  | none => throw .isFolder

def lines (folder : Folder) (path : String) : Except Fault (List String) :=
  ((folder.bytes path).bind fileLines).mapError fun trouble => trouble.fault path

end Folder
end StackScript
