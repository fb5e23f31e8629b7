import Palette.CommandLine.Run

/-!
# What a run reaches

The places of a file tree that a run may look at.  They depend on the variables,
and so on the file of variables, which is one of those places itself: once the
places are known to a workspace, further ones may come within reach.
-/

namespace Palette
namespace CommandLine

/-- The paths that an invocation and the variables name. -/
def paths (w : Workspace) (i : Invocation) : List String :=
  i.envFile.toList ++
    match i.request with
    | some (.work _ settings) =>
        (w.choosePath settings.scheme schemeVariable).toList ++
          (w.choosePath settings.template templateVariable).toList ++ settings.output.toList
    | _ => []

/-- All places that a path leads through. -/
def route (w : Workspace) (path : List Char) : List Location :=
  w.tree.passed (w.tree.start w.directory path) (Path.parts path)

/-- The places that the search for a file of variables looks at. -/
def landmarks (directory : Location) : List Location :=
  (List.range (directory.length + 1)).flatMap fun count =>
    [ directory.take count ++ [Dotenv.fileName],
      directory.take count ++ [Dotenv.boundaryName] ]

def reach (arguments : List String) (w : Workspace) : List Location :=
  match parse arguments with
  | .error _ => []
  | .ok i =>
      landmarks w.directory.location ++
        (paths (Dotenv.load w i.envFile).1 i).flatMap fun path => route w path.toList

end CommandLine
end Palette
