import KeyArbiter.Json.Text

/-!
# Files

What can go wrong when a text is read from a file, and the files below a directory as a place to
read from. A path is followed part by part, and the first part that cannot be followed decides.
-/

namespace KeyArbiter.Command

inductive FileError
  | missing
  | notDirectory
  | isDirectory
  | nameTooLong
  | nulInPath
  | notText
  deriving DecidableEq, Repr

def FileError.message : FileError → String
  | .missing => "No such file or directory (os error 2)"
  | .notDirectory => "Not a directory (os error 20)"
  | .isDirectory => "Is a directory (os error 21)"
  | .nameTooLong => "File name too long (os error 36)"
  | .nulInPath => "file name contained an unexpected NUL byte"
  | .notText => "stream did not contain valid UTF-8"

abbrev FileReader := String → Except FileError String

def textOf (data : List UInt8) : Except FileError String :=
  match Json.ofUtf8? data with
  | some s => .ok s
  | none => .error .notText

/-! ## Paths -/

/-- The most bytes that a path has, and that one of its parts has. -/
def longestPath : Nat := 4095

def longestName : Nat := 255

/-- A path that can be followed at all: it is not empty, it holds no NUL, and it is not too long. -/
def checkPath (path : String) : Except FileError Unit :=
  if path.contains (Char.ofNat 0) then .error .nulInPath
  else if path = "" then .error .missing
  else if longestPath < path.utf8ByteSize then .error .nameTooLong
  else .ok ()

/-- The names in a path that lead somewhere. -/
def pathNames (path : String) : List String :=
  (path.splitOn "/").filter fun name => name != "" && name != "."

/-! ## Directories -/

/-- What lies below a directory, by path: the content of a file, or none for a directory. The
directories on the way need not be listed. -/
abbrev Directory := List (String × Option (List UInt8))

namespace Directory

def root : Directory := [("dev/null", some []), ("tmp", none)]

/-- Follows the parts of a path from the directory that the names `at_` lead to. Two dots go up, and
from the top into `above`. -/
def follow (above dir : Directory) (at_ : List String) : List String → Except FileError (List UInt8)
  | [] => .error .isDirectory
  | name :: rest =>
    if name = "" ∨ name = "." then follow above dir at_ rest
    else if name = ".." then
      if at_.isEmpty then follow above above [] rest else follow above dir at_.dropLast rest
    else if longestName < name.utf8ByteSize then .error .nameTooLong
    else
      let here := at_ ++ [name]
      match dir.find? (here.isPrefixOf <| pathNames ·.1) with
      | none => .error .missing
      | some (path, content) =>
        match pathNames path == here, content with
        | true, some data => if rest.isEmpty then .ok data else .error .notDirectory
        | _, _ => follow above dir here rest

/-- Reads a file of the directory. A path that starts with a slash starts from the root; of what is
above the directory nothing is known. -/
def readText (dir : Directory) : FileReader := fun path => do
  checkPath path
  let parts := path.splitOn "/"
  textOf (← if path.startsWith "/" then follow root root [] parts else follow [] dir [] parts)

end Directory

end KeyArbiter.Command
