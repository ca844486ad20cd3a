import TapeMachine.Stream.Reading

/-!
# A directory of files

Files with which the command can be tried out: a finite tree from the root down, and the directory
in which the command works. A path is followed name by name: an empty name and a single dot stay,
two dots go up, and any other name goes down. Only folders can be stepped from. A folder can be
opened like a file, but it cannot be read.
-/

namespace TapeMachine

/-- Why a path cannot be opened, or an opened file cannot be read. -/
inductive FileProblem where
  | missing
  | notFolder
  | isFolder
  | nameTooLong
  deriving DecidableEq

/-- The texts of the operating system. -/
def FileProblem.error : FileProblem → IoError
  | missing => ⟨"No such file or directory (os error 2)"⟩
  | notFolder => ⟨"Not a directory (os error 20)"⟩
  | isFolder => ⟨"Is a directory (os error 21)"⟩
  | nameTooLong => ⟨"File name too long (os error 36)"⟩

/-- What a path leads to. -/
inductive Entry where
  | folder
  | file (content : List UInt8)
  deriving DecidableEq

/-- The reads of an opened entry. -/
def Entry.events : Entry → List ReadEvent
  | folder => [.failure FileProblem.isFolder.error]
  | file content => content.map .byte

/-- Entries with their places, each place being a list of names from the root down. The folders on
the way to an entry are there without being listed, and so is the working directory. -/
structure Directory where
  entries : List (List String × Entry)
  /-- The place of the working directory, from which relative paths are followed. -/
  home : List String
  deriving DecidableEq

namespace Directory

/-- The names of a path, without those that stay. -/
def names (path : String) : List String := (path.splitOn "/").filter fun s => s ≠ "" ∧ s ≠ "."

/-- The most bytes that a name in a path may take. -/
def longestName : Nat := 255

/-- The most bytes that a path may take. -/
def longestPath : Nat := 4095

/-- A working directory with the given paths and contents, in a small system around it. A path that
ends in a slash is a folder. -/
def ofFiles (files : List (String × List UInt8)) : Directory :=
  let home := ["home", "work"]
  let inside := files.map fun (path, content) =>
    (home ++ names path, if path.endsWith "/" then Entry.folder else .file content)
  ⟨(["dev", "null"], .file []) :: ["etc", "proc", "tmp", "usr", "var"].map (fun name =>
    ([name], .folder)) ++ inside, home⟩

/-- What stands at a place. -/
def lookup? (d : Directory) (place : List String) : Option Entry :=
  match d.entries.find? fun entry => entry.1 == place with
  | some entry => some entry.2
  | none =>
    if place.isPrefixOf d.home || d.entries.any fun entry => place.isPrefixOf entry.1 then
      some .folder
    else none

/-- Follows the rest of a path from a place. -/
def follow (d : Directory) (place : List String) : List String → Except FileProblem Entry
  | [] =>
    match d.lookup? place with
    | some entry => .ok entry
    | none => .error .missing
  | name :: rest =>
    match d.lookup? place with
    | none => .error .missing
    | some (.file _) => .error .notFolder
    | some .folder =>
      if name = "" ∨ name = "." then d.follow place rest
      else if name = ".." then d.follow place.dropLast rest
      else if longestName < name.utf8ByteSize then .error .nameTooLong
      else d.follow (place ++ [name]) rest

/-- What a path leads to. -/
def entry (d : Directory) (path : String) : Except FileProblem Entry :=
  if longestPath < path.utf8ByteSize then .error .nameTooLong
  else if path = "" then .error .missing
  else if path.startsWith "/" then d.follow [] (path.splitOn "/")
  else d.follow d.home (path.splitOn "/")

/-- Opens a path. -/
def opens (d : Directory) (path : String) : Except IoError (List ReadEvent) :=
  match d.entry path with
  | .ok entry => .ok entry.events
  | .error problem => .error problem.error

end Directory

end TapeMachine
