import ChipVM.Program.Source

/-!
# Program files

Paths are followed part by part from a working folder. Its own files and folders are known; every
folder outside it counts as empty. Only a file can be opened as a program: following a path into a
file fails, and so does a path that ends at a folder.
-/

namespace ChipVM

/-- What a path can lead to. -/
inductive Folder.Entry where
  | file (bytes : List UInt8)
  | folder
  deriving DecidableEq, Repr

/-- A working folder: the files and folders in it, each with the parts of its path. -/
structure Folder where
  entries : List (List String × Folder.Entry)
  deriving Repr

namespace Folder

/-- The names along a path that has no detours. -/
def names (path : String) : List String :=
  (path.splitToList (· == '/')).filter fun part => part ≠ "" ∧ part ≠ "."

/-- The working folder with an entry at each of the given paths. -/
def ofPaths (entries : List (String × Entry)) : Folder :=
  ⟨entries.map fun e => (names e.1, e.2)⟩

/-- A place that a path has reached. -/
inductive Place where
  /-- Inside the working folder, or the working folder itself. -/
  | inside (parts : List String)
  /-- Some folder outside. -/
  | outside
  deriving DecidableEq, Repr

/-- Nothing of that name exists. -/
def notFound : HostFault := ⟨.notFound, "No such file or directory (os error 2)"⟩

/-- A path goes on from something that is no folder. -/
def notADirectory : HostFault := ⟨.notADirectory, "Not a directory (os error 20)"⟩

/-- A path leads to something that is no file. -/
def notAFile (path : String) : HostFault := ⟨.invalidInput, path ++ " is not a file"⟩

/-- What is at a place, if anything is. A folder that holds an entry exists. -/
def entry? (f : Folder) : Place → Option Entry
  | .outside => some .folder
  | .inside [] => some .folder
  | .inside parts =>
    match f.entries.lookup parts with
    | some e => some e
    | none => if f.entries.any fun e => parts.isPrefixOf e.1 then some .folder else none

/-- The place one level up. -/
def parent : Place → Place
  | .outside => .outside
  | .inside [] => .outside
  | .inside parts => .inside parts.dropLast

/-- The place of a name in the folder at a place. -/
def child (name : String) : Place → Option Place
  | .outside => none
  | .inside parts => some (.inside (parts ++ [name]))

/-- Follow the parts of a path from a place. An empty part or a dot stays where it is and two dots
go up; all of them, like names, can only be followed from a folder. -/
def follow (f : Folder) (here : Place) : List String → Except HostFault Entry
  | [] => match f.entry? here with
    | some e => .ok e
    | none => .error notFound
  | part :: rest => match f.entry? here with
    | none => .error notFound
    | some (.file _) => .error notADirectory
    | some .folder =>
      if part = "" ∨ part = "." then follow f here rest
      else if part = ".." then follow f (parent here) rest
      else match child part here with
        | some place => follow f place rest
        | none => .error notFound

/-- What a path leads to. An empty path leads nowhere, and one that starts with a slash outside. -/
def find (f : Folder) (path : String) : Except HostFault Entry :=
  if path = "" then .error notFound
  else
    match path.splitToList (· == '/') with
    | "" :: rest => f.follow .outside rest
    | parts => f.follow (.inside []) parts

end Folder

namespace Program

/-- Open a program file. Its size is known beforehand, so one that is too large is not read. -/
def openFile (f : Folder) (path : String) : Except LoadFault Program :=
  match f.find path with
  | .error fault => .error (.unreadable fault)
  | .ok .folder => .error (.unreadable (Folder.notAFile path))
  | .ok (.file bytes) =>
    if capacity < bytes.length then .error (.tooLarge bytes.length capacity)
    else (read { bytes }).outcome

end Program

end ChipVM
