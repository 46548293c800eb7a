/-
Reading files by path: why it can fail, and how paths lead to the plain
files of one directory.
-/
namespace FrontEnd

/-- Why a file cannot be read. -/
inductive ReadFailure where
  | notFound
  | notDirectory
  | isDirectory
  | nameTooLong
  | other (reason : String)
deriving DecidableEq, Repr

/-- The failure in words, with its number. -/
def ReadFailure.message : ReadFailure → String
  | notFound => "No such file or directory (os error 2)"
  | notDirectory => "Not a directory (os error 20)"
  | isDirectory => "Is a directory (os error 21)"
  | nameTooLong => "File name too long (os error 36)"
  | other reason => reason

/-- A directory of plain files, by name. -/
abbrev Directory := List (String × List UInt8)

namespace Directory

/-- The longest name of a file, in bytes. -/
def maxName : Nat := 255

/-- The longest path, in bytes. -/
def maxPath : Nat := 4095

/-- Reads the file at a path from this directory on, given as the names
between its slashes. Empty names and `.` stay where they are, and `..`
leads outside, to a directory that has no files. -/
def readNames (d : Directory) : List String →
    Except ReadFailure (List UInt8)
  | [] => .error .isDirectory
  | name :: names =>
    if name == "" || name == "." then readNames d names
    else if name == ".." then readNames [] names
    else if name.utf8ByteSize > maxName then .error .nameTooLong
    else
      match d.lookup name with
      | none => .error .notFound
      | some bytes =>
        if names.isEmpty then .ok bytes else .error .notDirectory

/-- Reads the file at a path. One that starts with a slash starts
outside. -/
def read (d : Directory) (path : String) :
    Except ReadFailure (List UInt8) :=
  let names := path.splitOn "/"
  if path.utf8ByteSize > maxPath then .error .nameTooLong
  else if path.startsWith "/" then readNames [] names
  else d.readNames names

end Directory

end FrontEnd
