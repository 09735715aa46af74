import ProjectOrder.Command.Run

/-!
# The command line

The files of the computer as a file system, and the program itself: read the command line, carry it
out, print what it prints.
-/

namespace ProjectOrder

namespace Computer

/-- The place of a path. -/
def place (p : FilePath) :=
  (IO.FS.DirEntry.mk p.text "").root

/-- The fault that an error of the system stands for. -/
def faultOf : IO.Error → IoFault
  | .noFileOrDirectory .. | .noSuchThing .. => .notFound
  | .permissionDenied .. => .permissionDenied
  | .alreadyExists .. => .alreadyExists
  | .inappropriateType _ code _ =>
    if code = 20 then .notADirectory else if code = 21 then .isADirectory else .other
  | .resourceBusy .. => .resourceBusy
  | .interrupted .. => .interrupted
  | _ => .other

/-- Run an action and keep its error as a fault. -/
def attempt {α : Type} (action : IO α) : IO (Except IoFault α) := do
  match ← action.toBaseIO with
  | .ok a => return .ok a
  | .error e => return .error (faultOf e)

/-- Make a file beside a path, and then move it there. -/
def writeBeside (p : FilePath) (content : ByteArray) : IO Unit := do
  let tag ← IO.rand 0 1000000000000
  let directory := (p.parent?.filter (·.text ≠ "")).getD ⟨"."⟩
  let draft := directory.join s!".draft{tag}"
  try
    IO.FS.writeBinFile draft.text content
    IO.FS.rename draft.text p.text
  catch e =>
    if ← (place draft).pathExists then IO.FS.removeFile draft.text
    throw e

/-- The files under a directory. -/
def filesUnder (p : FilePath) : IO (List FilePath) := do
  let mut found := #[]
  for q in ← (place p).walkDir (fun _ => pure true) do
    if (← q.metadata).type matches .file then found := found.push ⟨q.toString⟩
  return found.toList

/-- The files of the computer. -/
instance : FileSystem IO where
  read p := attempt (IO.FS.readBinFile p.text)
  write p content := attempt (IO.FS.writeBinFile p.text content)
  replace p content := attempt (writeBeside p content)
  present p := (place p).pathExists
  isDirectory p := (place p).isDir
  createDirectories p := attempt (IO.FS.createDirAll p.text)
  findFiles p extensions :=
    attempt (return (← filesUnder p).filter (FileSystem.hasExtension extensions))

/-- The variables of the environment. Where the system does not list them, those that are known by
name. -/
def environment : IO Environment := do
  match ← (IO.FS.readFile "/proc/self/environ").toBaseIO with
  | .ok block => return .ofBlock block
  | .error _ =>
    ["HOME", "XDG_CONFIG_HOME", "VCXSORT_FILTERS_SUFFIX", "VCXSORT_CASE_ORDER", "VCXSORT_PARALLEL",
      "VCXSORT_VERIFY"].filterMapM fun name => return (← IO.getEnv name).map (name, ·)

/-- What a command finds around it. -/
def context : IO Context := do
  match ← IO.currentDir.toBaseIO with
  | .ok directory => return ⟨← environment, some ⟨directory.toString⟩⟩
  | .error _ => return ⟨← environment, none⟩

end Computer

/-- Carry out a command line, and give its exit status. -/
def perform (args : List String) : IO Nat := do
  match Arguments.parse args with
  | .error fault =>
    if fault.exitStatus = 0 then IO.println fault.message
    else IO.eprintln s!"error: {fault.message}"
    return fault.exitStatus
  | .ok invocation =>
    let output : Output ← invocation.run (← Computer.context)
    IO.print output.results
    IO.eprint output.faults
    if let some fault := output.fault then IO.eprintln s!"error: {fault.message}"
    return output.exitStatus

end ProjectOrder

/-- The program. -/
def main (args : List String) : IO UInt32 :=
  return (← ProjectOrder.perform args).toUInt32
