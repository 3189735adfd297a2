import Relay.Bytes

/-!
# `Relay.Files`: what a path leads to

A path is a list of names with slashes between them. Each name but the last is that of a directory;
empty names and `.` stay where they are, and `..` leads back. `FileTree.find` follows a path and
says what is found or why nothing is: names have a greatest length, a path as a whole has one too,
and the first name that leads nowhere ends the search.
-/

set_option autoImplicit false

namespace Relay

/-- Why a file cannot be found or read. -/
inductive FileFault where
  /-- Nothing has the name. -/
  | notFound
  /-- The file is not for us. -/
  | accessDenied
  /-- A name that others follow is not that of a directory. -/
  | notADirectory
  /-- A directory cannot be read like a file. -/
  | isADirectory
  /-- A name, or the whole path, is too long. -/
  | nameTooLong
  /-- Anything else. -/
  | other (reason : String)
deriving DecidableEq

/-- The wording of a fault. -/
def FileFault.message : FileFault → String
  | notFound => "No such file or directory (os error 2)"
  | accessDenied => "Permission denied (os error 13)"
  | notADirectory => "Not a directory (os error 20)"
  | isADirectory => "Is a directory (os error 21)"
  | nameTooLong => "File name too long (os error 36)"
  | other reason => reason

/-- A file or a directory. -/
structure File where
  /-- Its kind and who may do what with it, as a number of five or six octal digits. -/
  mode : Nat
  /-- What is in it, or why it cannot be read. -/
  data : Except FileFault Bytes

namespace File

/-- A directory. -/
def directory (mode : Nat) : File := ⟨0o40000 + mode, .error .isADirectory⟩

/-- Whether a file is a directory: the digits before the last four say so. -/
def isDirectory (f : File) : Bool := f.mode >>> 12 = 4

end File

/-- Files and directories. -/
structure FileTree where
  /-- What there is below the root, by the names that lead there. -/
  entries : List (List String × File)
  /-- The names that lead to where paths begin that do not begin at the root. -/
  workplace : List String := []

namespace FileTree

/-- The longest name of a file, in bytes. -/
def maxName : Nat := 255

/-- The longest path, in bytes. -/
def maxPath : Nat := 4095

/-- The file at a place; the root is a directory. -/
def get? (t : FileTree) (place : List String) : Option File :=
  if place.isEmpty then some (.directory 0o755) else t.entries.lookup place

/-- The place that a name leads to from another place. -/
def enter (t : FileTree) (place : List String) (name : String) :
    Except FileFault (List String) :=
  match t.get? place with
  | none => .error .notFound
  | some f =>
    if !f.isDirectory then .error .notADirectory
    else if name = "" ∨ name = "." then .ok place
    else if name = ".." then .ok place.dropLast
    else if name.utf8ByteSize > maxName then .error .nameTooLong
    else if (t.get? (place ++ [name])).isSome then .ok (place ++ [name])
    else .error .notFound

/-- The file that a path leads to. -/
def find (t : FileTree) (path : String) : Except FileFault File := do
  if path.utf8ByteSize > maxPath then throw .nameTooLong
  if path.isEmpty then throw .notFound
  let start := if path.startsWith "/" then [] else t.workplace
  match t.get? (← (path.splitOn "/").foldlM t.enter start) with
  | some f => return f
  | none => throw .notFound

end FileTree

end Relay
