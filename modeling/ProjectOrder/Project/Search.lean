import ProjectOrder.Project.Failure

/-!
# Finding projects

A path on the command line is either a project file, taken as it is, or a directory that is searched
for project files. Paths that are the same as an earlier one are dropped.
-/

namespace ProjectOrder

/-- The extensions of item lists. -/
def itemListExtensions : List String := ["vcxproj", "vcproj"]

/-- The paths that are not the same as one of some others, nor as one before them. -/
def freshPaths (seen : List FilePath) : List FilePath → List FilePath
  | [] => []
  | p :: ps =>
    if seen.any (·.same p) then freshPaths seen ps
    else p :: freshPaths (seen ++ [p]) ps

variable {m : Type → Type} [Monad m] [FileSystem m]

/-- The project files that one path stands for; those of a directory come in order. -/
def expand (path : FilePath) : m (Except Failure (List FilePath)) := do
  if ← FileSystem.isDirectory path then
    match ← FileSystem.findFiles path itemListExtensions with
    | .error fault => return .error (.ofIo "scan directory" path fault)
    | .ok found => return .ok (found.mergeSort fun p q => (p.compare q).isLE)
  else return .ok [path]

/-- The project files that some paths stand for, one path after the other. -/
def expandAll : List FilePath → m (Except Failure (List FilePath))
  | [] => return .ok []
  | p :: ps => do
    match ← expand p with
    | .error failure => return .error failure
    | .ok found =>
      match ← expandAll ps with
      | .error failure => return .error failure
      | .ok rest => return .ok (found ++ rest)

/-- The projects that some paths stand for, each once. -/
def search (paths : List FilePath) : m (Except Failure (List FilePath)) := do
  match ← expandAll paths with
  | .error failure => return .error failure
  | .ok found => return .ok (freshPaths [] found)

end ProjectOrder
