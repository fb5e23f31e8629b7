import Palette.Environment.Dotenv
import Palette.Workspace.Basic

/-!
# Loading variables

The variables come from a file that is named, or else from the first `.env` file
found in the current directory and those above it.  The search does not go above
a directory that holds `.git`, and fails where a path is too long to be looked
at.  Variables that are set already stay as they are.
-/

namespace Palette
namespace Dotenv

/-! ## Search -/

def fileName : String :=
  ".env"

def boundaryName : String :=
  ".git"

/-- Whether a directory holds a file of variables. -/
def holdsFile (t : Tree) (directory : Place) : Bool :=
  t.isFile (directory.child fileName)

/-- Whether the search ends in a directory. -/
def isBoundary (t : Tree) (directory : Place) : Bool :=
  (t.entryAt? (directory.child boundaryName)).isSome

/-- Searches directories one after the other, up to one that the search ends in. -/
def search (t : Tree) : List Place → Option Place
  | [] => none
  | directory :: above =>
      if holdsFile t directory then some (directory.child fileName)
      else if isBoundary t directory then none
      else search t above

/-- Searches a directory and those above it. -/
def find (t : Tree) (directory : Place) : Option Place :=
  search t (t.lineage directory)

/-! ## Loading -/

inductive Fault where
  | file (fault : FileFault)
  | notUtf8 (fault : Text.Utf8.Fault)
  /-- A NUL character in a path, a name or a value. -/
  | nullCharacter
  /-- An equals sign in a name. -/
  | badName
  | emptyName
deriving DecidableEq

def Fault.message : Fault → String
  | file fault => fault.message
  | notUtf8 fault => fault.message
  | nullCharacter => "embedded null byte"
  | badName => "illegal environment variable name"
  | emptyName => "[Errno 22] Invalid argument"

/-- The variables that the bytes of a file set. -/
def parseBytes (bytes : Text.Bytes) : Except Fault (List (String × String)) :=
  match Text.Utf8.decode bytes with
  | .error fault => .error (.notUtf8 fault)
  | .ok text => .ok (parse (Text.toLineFeeds text))

def parseFile (w : Workspace) (path : String) : Except Fault (List (String × String)) :=
  match w.read (String.ofList (Path.tidy path.toList)) with
  | .error fault => .error (.file fault)
  | .ok bytes => parseBytes bytes

def holdsNull (s : String) : Bool :=
  s.toList.contains (Char.ofNat 0)

/-- Whether the path of a place is too long to be looked at, or a part of it that is
reached is. -/
def isTooLong (w : Workspace) (place : Place) : Bool :=
  if Tree.pathLimit < Tree.byteCount (w.fullPath place).toList then true
  else
    match w.tree.walk ⟨place.landmark, []⟩ (place.location.map String.toList) with
    | .ok _ => false
    | .error cause => cause = .nameTooLong

/-- The file found from a directory up.  The paths get shorter on the way, so that
only the first one can be too long. -/
def findAt (w : Workspace) (directory : Place) : Except Fault (Option Place) :=
  let file := directory.child fileName
  if isTooLong w file then .error (.file ⟨.nameTooLong, w.fullPath file⟩)
  else .ok (find w.tree directory)

/-- The full path of the file found from a starting path. -/
def findFrom (w : Workspace) (start : String) : Except Fault (Option String) :=
  if holdsNull start then .error .nullCharacter
  else (findAt w (w.placeOf start)).map fun found => found.map w.fullPath

/-- Sets a variable, which cannot be done with a NUL character or without a proper
name. -/
def set (w : Workspace) (name value : String) : Except Fault Workspace :=
  if holdsNull name || holdsNull value then .error .nullCharacter
  else if name.toList.contains '=' then .error .badName
  else if name = "" then .error .emptyName
  else .ok (w.setVariable name value)

/-- Sets the variables that are not set yet, up to the first that cannot be. -/
def addAbsent (w : Workspace) : List (String × String) → Workspace × Except Fault Unit
  | [] => (w, .ok ())
  | (name, value) :: rest =>
      if (w.valueOf? name).isSome then addAbsent w rest
      else
        match set w name value with
        | .error fault => (w, .error fault)
        | .ok w => addAbsent w rest

/-- The path to load from, as it is shown, and the bytes there. -/
def select (w : Workspace) (file : Option String) :
    Except Fault (Option (String × Text.Bytes)) :=
  match file.filter (· != "") with
  | some path =>
      let path := String.ofList (Path.tidy path.toList)
      match w.read path with
      | .ok bytes =>
          if (w.tree.find? w.directory path.toList).any Entry.isFile then .ok (some (path, bytes))
          else .ok none
      | .error fault =>
          if fault.cause = .nameTooLong then .error (.file fault) else .ok none
  | none =>
      match findAt w w.directory with
      | .error fault => .error fault
      | .ok none => .ok none
      | .ok (some place) =>
          .ok (((w.tree.entryAt? place).bind Entry.bytes?).map fun bytes =>
            (w.fullPath place, bytes))

/-- Loads the variables of a named file, or of the one that is found, and gives
the path of the file. -/
def load (w : Workspace) (file : Option String) : Workspace × Except Fault (Option String) :=
  match select w file with
  | .error fault => (w, .error fault)
  | .ok none => (w, .ok none)
  | .ok (some (path, bytes)) =>
      match parseBytes bytes with
      | .error fault => (w, .error fault)
      | .ok bindings =>
          match addAbsent w bindings with
          | (w, .error fault) => (w, .error fault)
          | (w, .ok ()) => (w, .ok (some path))

end Dotenv
end Palette
