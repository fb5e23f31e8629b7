import Palette.CommandLine.Reach

/-!
# The program

Looks up the part of the file system that a run may reach, makes the run, and
stores and prints what came of it.
-/

namespace Palette
namespace CommandLine

def look (location : Location) : IO (Option Entry) := do
  let path := (← IO.currentDir) / ("/" ++ Tree.locationText location)
  if ← path.isDir then
    return some .directory
  if ← path.pathExists then
    return some (.file (← IO.FS.readBinFile path).toList)
  return none

/-- The workspace with what stands at the places within reach. -/
def survey (arguments : List String) (w : Workspace) : IO Workspace := do
  let tree ← (reach arguments w).foldlM (fun tree location => do
    match ← look location with
    | some entry => return tree.put location entry
    | none => return tree) w.tree
  return { w with tree := tree }

/-- The workspace in which the program is started, as far as a run reaches it. -/
def surroundings (arguments : List String) : IO Workspace := do
  let directory := Tree.whole.normalize Workspace.root (← IO.currentDir).toString.toList
  let environment ← [schemeVariable, templateVariable].filterMapM fun name => do
    return (← IO.getEnv name).map fun value => (name, value)
  survey arguments
    (← survey arguments
      { rootPath := ""
        tree := Tree.whole.withDirectory directory.location
        directory := directory
        environment := environment })

/-- Writes changes of the file tree. -/
def store (changes : List (Location × Entry)) : IO Unit :=
  changes.forM fun (location, entry) =>
    match entry.bytes? with
    | some bytes => IO.FS.writeBinFile ("/" ++ Tree.locationText location) ⟨bytes.toArray⟩
    | none => IO.FS.createDirAll ("/" ++ Tree.locationText location)

end CommandLine
end Palette

def main (arguments : List String) : IO UInt32 := do
  let w ← Palette.CommandLine.surroundings arguments
  let (session, ending) := Palette.CommandLine.run arguments w
  Palette.CommandLine.store (Palette.Tree.changes w.tree session.workspace.tree)
  IO.print session.output.shown
  IO.eprint session.errors
  match ending with
  | .exit code => return code.toNat.toUInt32
  | .escape failure =>
      IO.eprintln failure.message
      return 1
