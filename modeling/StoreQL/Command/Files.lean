/-
# Files of data sets

A data set may stand in a file, which is found by its path. A path is names between slashes. It is
walked from the root if it begins with a slash, and else from the working directory. A single dot
stays where it is and two dots go to the directory above, where the root is above itself. Each step
starts at a directory; so a path that goes on behind a file leads nowhere, even if what follows is
only a slash.
-/
namespace StoreQL.Command

/-- Why a file cannot be read. -/
inductive FileError where
  | notFound
  | notDirectory
  | isDirectory
  | nameTooLong
  | invalidText
  | other (reason : String)
deriving DecidableEq, Repr

/-- The error in words. -/
def FileError.message : FileError → String
  | .notFound => "No such file or directory (os error 2)"
  | .notDirectory => "Not a directory (os error 20)"
  | .isDirectory => "Is a directory (os error 21)"
  | .nameTooLong => "File name too long (os error 36)"
  | .invalidText => "stream did not contain valid UTF-8"
  | .other reason => reason

/-- A place in a tree of files: the names on the way from the root. -/
abbrev Place := List String

/-- Files with their texts, and the working directory. The directories are those on the way to a
file or to the working directory. -/
structure FileTree where
  files : List (Place × String)
  working : Place
deriving DecidableEq, Repr

namespace FileTree

/-- The text of the file at a place. -/
def text? (t : FileTree) (place : Place) : Option String :=
  (t.files.find? (fun file => file.1 == place)).map Prod.snd

/-- Whether there is a directory at a place. -/
def hasDirectory (t : FileTree) (place : Place) : Bool :=
  place.isPrefixOf t.working ||
    t.files.any (fun file => place.isPrefixOf file.1 && place != file.1)

/-- The bytes that a name may have. -/
def maxNameSize : Nat := 255

/-- The bytes that a path may have. -/
def maxPathSize : Nat := 4095

/-- One step of a walk, by a name of the path. -/
def step (t : FileTree) (place : Place) (name : String) : Except FileError Place :=
  if !t.hasDirectory place then .error .notDirectory
  else if name = "" ∨ name = "." then .ok place
  else if name = ".." then .ok place.dropLast
  else if maxNameSize < name.utf8ByteSize then .error .nameTooLong
  else
    let next := place ++ [name]
    if t.hasDirectory next || (t.text? next).isSome then .ok next else .error .notFound

/-- The text of the file that a path leads to. -/
def read (t : FileTree) (path : String) : Except FileError String := do
  if path = "" then throw .notFound
  if maxPathSize < path.utf8ByteSize then throw .nameTooLong
  let start := if path.toList.head? = some '/' then [] else t.working
  let place ← (path.splitOn "/").foldlM t.step start
  match t.text? place with
  | some text => return text
  | none => throw .isDirectory

end FileTree
end StoreQL.Command
