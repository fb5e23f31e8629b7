import Palette.Machine
import Palette.Workspace.Tree

/-!
# Workspaces

What a run of the program works on: a tree of files, the directory it is run
in, the variables of its environment, and the machine.
-/

namespace Palette

structure Workspace where
  /-- How the root of the tree is written. -/
  rootPath : String
  tree : Tree
  /-- The current directory. -/
  directory : Place
  environment : List (String × String)
  machine : Machine := .usual

namespace Workspace

def valueOf? (w : Workspace) (name : String) : Option String :=
  Entries.get? w.environment name

def setVariable (w : Workspace) (name value : String) : Workspace :=
  { w with environment := Entries.put w.environment name value }

def unsetVariable (w : Workspace) (name : String) : Workspace :=
  { w with environment := Entries.erase w.environment name }

def read (w : Workspace) (path : String) : Except FileFault Text.Bytes :=
  w.tree.read w.directory path

def write (w : Workspace) (path : String) (entry : Entry) : Except FileFault Workspace :=
  (w.tree.write w.directory path entry).map fun tree => { w with tree := tree }

/-- The place that a path leads to by its text alone. -/
def placeOf (w : Workspace) (path : String) : Place :=
  w.tree.normalize w.directory path.toList

/-- The full path of a place. -/
def fullPath (w : Workspace) (place : Place) : String :=
  let landmarkPath :=
    match place.landmark with
    | .root => w.rootPath
    | .top => ""
  landmarkPath ++ "/" ++ Tree.locationText place.location

/-! ## Paths from the root -/

def root : Place :=
  .inside []

/-- The full path of a path from the root. -/
def pathFromRoot (w : Workspace) (path : String) : String :=
  if Path.isAbsolute path.toList then path else w.rootPath ++ "/" ++ path

/-- The place that a path leads to from the root. -/
def fromRoot (w : Workspace) (path : String) : Except FileFault Place :=
  match w.tree.resolve root (if path = "" then ['.'] else path.toList) with
  | .error cause => .error ⟨cause, w.pathFromRoot path⟩
  | .ok place => .ok place

/-- Goes to a directory, given by its path from the root. -/
def goTo (w : Workspace) (path : String) : Except FileFault Workspace :=
  match w.fromRoot path with
  | .error fault => .error fault
  | .ok place =>
      match w.tree.entryAt? place with
      | some .directory => .ok { w with directory := place }
      | some _ => .error ⟨.notDirectory, w.pathFromRoot path⟩
      | none => .error ⟨.missing, w.pathFromRoot path⟩

/-- Removes a file, given by its path from the root. -/
def remove (w : Workspace) (path : String) : Except FileFault Workspace :=
  match w.fromRoot path with
  | .error fault => .error fault
  | .ok place =>
      match w.tree.entryAt? place with
      | some .directory => .error ⟨.isDirectory, w.pathFromRoot path⟩
      | some _ => .ok { w with tree := w.tree.removeAt place }
      | none => .error ⟨.missing, w.pathFromRoot path⟩

/-- Makes a directory, given by its path from the root, and those above it. -/
def storeDirectory (w : Workspace) (path : String) : Except FileFault Workspace :=
  if path = "" then .ok w
  else
    match Tree.makeDirectories root path.length w.tree path.toList with
    | .error fault => .error ⟨fault.cause, w.pathFromRoot fault.path⟩
    | .ok tree => .ok { w with tree := tree }

/-- Puts a file, given by its path from the root, and makes the directories above it. -/
def store (w : Workspace) (path : String) (bytes : Text.Bytes) : Except FileFault Workspace :=
  match w.tree.makeParents root path.toList with
  | .error fault => .error ⟨fault.cause, w.pathFromRoot fault.path⟩
  | .ok tree =>
      match tree.write root (if path = "" then "." else path) (.file bytes) with
      | .error fault => .error ⟨fault.cause, w.pathFromRoot path⟩
      | .ok tree => .ok { w with tree := tree }

/-! ## Choice of paths -/

/-- A given path if it is not empty, or the value of a variable if that is not
empty. -/
def choosePath (w : Workspace) (given : Option String) (name : String) : Option String :=
  match given with
  | some path => if path = "" then fromVariable else some path
  | none => fromVariable
where
  fromVariable : Option String := (w.valueOf? name).filter (· != "")

end Workspace
end Palette
