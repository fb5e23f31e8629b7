import Palette.Entries
import Palette.Png
import Palette.Text.Quoted
import Palette.Workspace.Path

/-!
# File trees

A tree of files and directories below a root, without links, and some places
around it.  A path leads from a directory to a place, which need not exist.
Neither a path nor one of its parts may be too long.  Reading and writing may
fail; a failure names the path as it was given and one of a few causes.
-/

namespace Palette

/-- The parts of a path from the root down. -/
abbrev Location := List String

inductive Entry where
  | file (bytes : Text.Bytes)
  | picture (image : Image)
  /-- Takes what is written to it and is always read as empty. -/
  | nullDevice
  | directory
deriving DecidableEq

namespace Entry

def isDirectory : Entry → Bool
  | directory => true
  | _ => false

/-- Whether an entry is a file that holds something of its own. -/
def isFile : Entry → Bool
  | file _ => true
  | picture _ => true
  | _ => false

/-- What is read from an entry. -/
def bytes? : Entry → Option Text.Bytes
  | file bytes => some bytes
  | picture image => some (Png.encode image)
  | nullDevice => some []
  | directory => none

end Entry

/-! ## Failures -/

inductive FileCause where
  | missing
  | exists
  | notDirectory
  | isDirectory
  /-- The path or one of its parts has too many bytes. -/
  | nameTooLong
  /-- The path holds a NUL character. -/
  | nullCharacter
deriving DecidableEq

structure FileFault where
  cause : FileCause
  path : String
deriving DecidableEq

namespace FileFault

def message (fault : FileFault) : String :=
  let describe (number text : String) : String :=
    "[Errno " ++ number ++ "] " ++ text ++ ": " ++ Text.quoted fault.path
  match fault.cause with
  | .missing => describe "2" "No such file or directory"
  | .exists => describe "17" "File exists"
  | .notDirectory => describe "20" "Not a directory"
  | .isDirectory => describe "21" "Is a directory"
  | .nameTooLong => describe "36" "File name too long"
  | .nullCharacter => "embedded null byte"

end FileFault

/-! ## Places -/

/-- A directory that is always there. -/
inductive Landmark where
  | root
  /-- Where a path with a slash in front starts. -/
  | top
deriving DecidableEq

/-- A place, told by the way down to it from a landmark. -/
structure Place where
  landmark : Landmark
  location : Location
deriving DecidableEq

namespace Place

/-- A place below the root. -/
def inside (location : Location) : Place :=
  ⟨.root, location⟩

/-- The location of a place below the root. -/
def location? (p : Place) : Option Location :=
  if p.landmark = .root then some p.location else none

/-- The place with a name in a directory. -/
def child (p : Place) (name : String) : Place :=
  { p with location := p.location ++ [name] }

end Place

/-! ## Trees -/

/-- The files and directories below a root, which is always a directory, and
what is known of other places. -/
structure Tree where
  entries : List (Location × Entry)
  outside : List (Place × Entry)
  /-- The directory that holds the root, from the top down; if there is none, the
  root is the top itself. -/
  above : Option Location
deriving DecidableEq

namespace Tree

/-- The directories that are found at the top of a file system. -/
def topDirectories : List String :=
  [ "bin", "boot", "dev", "etc", "home", "lib", "media", "mnt", "opt", "proc", "root", "run",
    "sbin", "srv", "sys", "tmp", "usr", "var" ]

/-- A root without entries, in the directory for temporary files of a file system
with the usual directories and a null device. -/
def empty : Tree where
  entries := []
  outside :=
    (topDirectories.map fun name => (⟨.top, [name]⟩, .directory)) ++
      [(⟨.top, ["dev", "null"]⟩, .nullDevice)]
  above := some ["tmp"]

/-- A root without entries and with nothing above it. -/
def whole : Tree :=
  ⟨[], [], none⟩

def get? (t : Tree) (location : Location) : Option Entry :=
  if location = [] then some .directory else Entries.get? t.entries location

def put (t : Tree) (location : Location) (entry : Entry) : Tree :=
  { t with entries := Entries.put t.entries location entry }

/-- Makes a directory and those above it where there is nothing yet. -/
def withDirectory (t : Tree) (location : Location) : Tree :=
  (List.range (location.length + 1)).foldl (fun t count =>
    let above := location.take count
    if (t.get? above).isSome then t else t.put above .directory) t

/-! ## Paths -/

def entryAt? (t : Tree) (place : Place) : Option Entry :=
  if place.location = [] then some .directory
  else if place.landmark = .root then t.get? place.location
  else Entries.get? t.outside place

def isFile (t : Tree) (place : Place) : Bool :=
  (t.entryAt? place).any Entry.isFile

/-- Puts an entry to a place.  A null device stays what it is. -/
def putAt (t : Tree) (place : Place) (entry : Entry) : Tree :=
  if t.entryAt? place = some .nullDevice then t
  else if place.landmark = .root then t.put place.location entry
  else { t with outside := Entries.put t.outside place entry }

/-- Removes the entry of a place.  A null device stays what it is. -/
def removeAt (t : Tree) (place : Place) : Tree :=
  if t.entryAt? place = some .nullDevice then t
  else if place.landmark = .root then { t with entries := Entries.erase t.entries place.location }
  else { t with outside := Entries.erase t.outside place }

/-- Where a path with a slash in front starts. -/
def top (t : Tree) : Place :=
  if t.above.isNone then .inside [] else ⟨.top, []⟩

def start (t : Tree) (base : Place) (path : List Char) : Place :=
  if Path.isAbsolute path then t.top else base

/-- The directory that holds a place. -/
def parent (t : Tree) (place : Place) : Place :=
  match place.location, place.landmark, t.above with
  | [], .root, some above => ⟨.top, above⟩
  | _, _, _ => { place with location := place.location.dropLast }

/-- The places from one up to its landmark.  The parts of the first one are given
from the last one up. -/
def upward (landmark : Landmark) : List String → List Place
  | [] => [⟨landmark, []⟩]
  | part :: above => ⟨landmark, (part :: above).reverse⟩ :: upward landmark above

/-- A place and the directories above it, from the place up. -/
def lineage (t : Tree) (place : Place) : List Place :=
  upward place.landmark place.location.reverse ++
    match place.landmark, t.above with
    | .root, some above => upward .top above.reverse
    | _, _ => []

def enter (t : Tree) (place : Place) (part : List Char) : Place :=
  if Path.isIdle part then place
  else if part = ['.', '.'] then t.parent place
  else place.child (String.ofList part)

/-- The most bytes that a part of a path may have. -/
def partLimit : Nat :=
  255

/-- The most bytes that a path may have. -/
def pathLimit : Nat :=
  4095

/-- The number of bytes of a path or a part. -/
def byteCount (path : List Char) : Nat :=
  (Text.Utf8.encode path).length

/-- Follows the parts of a path; all but the last place must be directories. -/
def walk (t : Tree) : Place → List (List Char) → Except FileCause Place
  | place, [] => .ok place
  | place, part :: rest =>
      match t.entryAt? place with
      | none => .error .missing
      | some entry =>
          if !entry.isDirectory then .error .notDirectory
          else if partLimit < byteCount part then .error .nameTooLong
          else walk t (t.enter place part) rest

/-- The place that the given parts of a path lead to from a directory. -/
def follow (t : Tree) (base : Place) (path : List Char) (parts : List (List Char)) :
    Except FileCause Place :=
  if path.contains (Char.ofNat 0) then .error .nullCharacter
  else if path.isEmpty then .error .missing
  else if pathLimit < byteCount path then .error .nameTooLong
  else t.walk (t.start base path) parts

/-- The place that a path leads to from a directory. -/
def resolve (t : Tree) (base : Place) (path : List Char) : Except FileCause Place :=
  t.follow base path (Path.parts path)

/-- The entry that a path leads to. -/
def find? (t : Tree) (base : Place) (path : List Char) : Option Entry :=
  match t.resolve base path with
  | .ok place => t.entryAt? place
  | .error _ => none

/-- Follows a path by its text alone, whether its places exist or not. -/
def normalize (t : Tree) (base : Place) (path : List Char) : Place :=
  (Path.parts path).foldl t.enter (t.start base path)

/-- All places that a path leads through, by its text alone. -/
def passed (t : Tree) : Place → List (List Char) → List Location
  | place, [] => place.location?.toList
  | place, part :: rest => place.location?.toList ++ passed t (t.enter place part) rest

/-! ## Reading and writing -/

def read (t : Tree) (base : Place) (path : String) : Except FileFault Text.Bytes :=
  match t.resolve base path.toList with
  | .error cause => .error ⟨cause, path⟩
  | .ok place =>
      match t.entryAt? place with
      | none => .error ⟨.missing, path⟩
      | some entry =>
          match entry.bytes? with
          | some bytes => .ok bytes
          | none => .error ⟨.isDirectory, path⟩

def dropSlashes (path : List Char) : List Char :=
  Text.trimEndOf (· == '/') path

/-- Writes a file, which replaces an earlier one.  Its directory must exist, and
its path must not end with a slash. -/
def write (t : Tree) (base : Place) (path : String) (entry : Entry) :
    Except FileFault Tree :=
  let stem := dropSlashes path.toList
  if !stem.isEmpty ∧ stem ≠ path.toList then
    match t.follow base path.toList ((Path.parts stem).dropLast ++ [['.']]) with
    | .error cause => .error ⟨cause, path⟩
    | .ok _ => .error ⟨.isDirectory, path⟩
  else
    match t.resolve base path.toList with
    | .error cause => .error ⟨cause, path⟩
    | .ok place =>
        if (t.entryAt? place).any Entry.isDirectory then .error ⟨.isDirectory, path⟩
        else .ok (t.putAt place entry)

/-- Makes one directory, in one that exists. -/
def makeDirectory (t : Tree) (base : Place) (path : List Char) : Except FileCause Tree :=
  let stem := if path.all (· == '/') then path else dropSlashes path
  match t.follow base path (Path.parts stem) with
  | .error cause => .error cause
  | .ok place =>
      if (t.entryAt? place).isSome then .error .exists else .ok (t.putAt place .directory)

/-- Makes a directory unless it is there. -/
def ensureDirectory (t : Tree) (base : Place) (path : List Char) : Except FileFault Tree :=
  match t.makeDirectory base path with
  | .ok t => .ok t
  | .error cause =>
      if (t.find? base path).any Entry.isDirectory then .ok t
      else .error ⟨cause, String.ofList path⟩

/-- The directory of a path and its last part; slashes at the end do not count. -/
def splitDirectory (path : List Char) : List Char × List Char :=
  match Path.split path with
  | (head, []) => Path.split head
  | parts => parts

/-- Makes a directory and those above it, unless they are there.  The count
bounds the number of directories. -/
def makeDirectories (base : Place) : Nat → Tree → List Char → Except FileFault Tree
  | 0, t, path => t.ensureDirectory base path
  | count + 1, t, path =>
      match splitDirectory path with
      | (head, tail) =>
          if head.isEmpty || tail.isEmpty || (t.find? base head).isSome then
            t.ensureDirectory base path
          else
            let above : Except FileFault Tree :=
              match makeDirectories base count t head with
              | .ok t => .ok t
              | .error fault => if fault.cause = .exists then .ok t else .error fault
            match above with
            | .error fault => .error fault
            | .ok t => if tail = ['.'] then .ok t else t.ensureDirectory base path

/-- Makes the directories that lead to the last part of a path. -/
def makeParents (t : Tree) (base : Place) (path : List Char) : Except FileFault Tree :=
  let parent := Path.directory path
  if parent.isEmpty then .ok t else makeDirectories base parent.length t parent

/-! ## Changes -/

def locationText (location : Location) : String :=
  "/".intercalate location

/-- The entries of a tree that another tree does not have as they are. -/
def changes (before after : Tree) : List (Location × Entry) :=
  after.entries.filter fun (location, entry) => before.get? location != some entry

/-- The files among the changes, sorted by their paths. -/
def changedFiles (before after : Tree) : List (String × Entry) :=
  (((changes before after).filter fun change => !change.2.isDirectory).map
    fun (location, entry) => (locationText location, entry)).mergeSort fun a b => !(b.1 < a.1)

end Tree
end Palette
