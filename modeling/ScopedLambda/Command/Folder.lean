/-!
# Reading files by path

The text of a program is read from a file or from standard input. Reading can fail, and a failure is
reported in the words of the system.

* `ReadFailure` — why something could not be read, and `ReadFailure.message`, in words.
* `Folder` — a folder of files given as data.
* `Folder.read` — what a path from that folder leads to.

A path is followed name by name, from the folder or, if it begins with `/`, from outside it. An
empty name and `.` stay where they are and `..` goes back, and all three need a folder to stand on.
Nothing is known by name outside the folder. Both a path and a name in it have a greatest length.
-/

set_option autoImplicit false

namespace ScopedLambda.Command

/-- Why something could not be read. -/
inductive ReadFailure where
  | notFound
  | isDirectory
  | notDirectory
  | nameTooLong
  | notText
  | other (message : String)
deriving DecidableEq

/-- The failure in words. -/
def ReadFailure.message : ReadFailure → String
  | notFound => "No such file or directory (os error 2)"
  | isDirectory => "Is a directory (os error 21)"
  | notDirectory => "Not a directory (os error 20)"
  | nameTooLong => "File name too long (os error 36)"
  | notText => "stream did not contain valid UTF-8"
  | other message => message

/-- The greatest length of a path, in bytes. -/
def maxPathLength : Nat := 4095

/-- The greatest length of a name in a path, in bytes. -/
def maxNameLength : Nat := 255

/-- A folder: its files, each with the names that lead to it and its text. -/
structure Folder where
  files : List (List String × String)

/-- Where a path has led: along some names into the folder, or to a folder outside it. -/
inductive Place where
  | inside (names : List String)
  | outside
deriving DecidableEq

/-- One step back. -/
def Place.parent : Place → Place
  | inside [] => outside
  | inside names => inside names.dropLast
  | outside => outside

namespace Folder

/-- The names that a path consists of. -/
def names (path : String) : List String :=
  (path.toList.splitOn '/').map String.ofList

/-- The folder of files given by path. -/
def ofFiles (files : List (String × String)) : Folder :=
  ⟨files.map fun (path, text) =>
    ((names path).filter fun name => name != "" && name != ".", text)⟩

/-- The text of the file at a place. -/
def file? (folder : Folder) : Place → Option String
  | .inside names => folder.files.lookup names
  | .outside => none

/-- Whether a place is a folder: the top one, one on the way to some file, or one outside. -/
def isFolder (folder : Folder) : Place → Bool
  | .inside names =>
    names.isEmpty || folder.files.any fun (path, _) =>
      names.isPrefixOf path && names.length < path.length
  | .outside => true

/-- The place of a name in a folder. -/
def child (place : Place) (name : String) : Except ReadFailure Place :=
  if maxNameLength < name.utf8ByteSize then .error .nameTooLong
  else match place with
    | .inside names => .ok (.inside (names ++ [name]))
    | .outside => .error .notFound

/-- Follows names from a place. -/
def follow (folder : Folder) (place : Place) : List String → Except ReadFailure String
  | [] =>
    match folder.file? place with
    | some text => .ok text
    | none => .error (if folder.isFolder place then .isDirectory else .notFound)
  | name :: rest =>
    if (folder.file? place).isSome then .error .notDirectory
    else if !folder.isFolder place then .error .notFound
    else if name = "" ∨ name = "." then folder.follow place rest
    else if name = ".." then folder.follow place.parent rest
    else do folder.follow (← child place name) rest

/-- The text of the file that a path leads to. The empty path leads nowhere. -/
def read (folder : Folder) (path : String) : Except ReadFailure String :=
  if path.isEmpty then .error .notFound
  else if maxPathLength < path.utf8ByteSize then .error .nameTooLong
  else
    let start := if path.toList.head? = some '/' then .outside else .inside []
    folder.follow start (names path)

end Folder

end ScopedLambda.Command
