import ProjectOrder.Command.Arguments
import ProjectOrder.Command.Output
import ProjectOrder.Project.Search
import ProjectOrder.Project.Run
import ProjectOrder.Settings.Load

/-!
# Carrying out commands

A command loads the settings, finds its files, processes each of them, and tells what became of
them. No failure of one file keeps another from being processed. How the command ends depends only
on how many files ended in which way.
-/

namespace ProjectOrder

/-- What a command finds around it. -/
structure Context where
  environment : Environment
  /-- The working directory, if it can be told. -/
  directory : Option FilePath

/-- How many files ended in which way. -/
structure Count where
  sorted : Nat
  unchanged : Nat
  skipped : Nat
  failed : Nat
  /-- The worst kind of failure. -/
  worst : Option FailureKind
deriving DecidableEq, Repr

/-- The worst of some kinds of failure. -/
def FailureKind.worst? : List FailureKind → Option FailureKind
  | [] => none
  | kind :: kinds => some ((worst? kinds).elim kind kind.worse)

namespace Report

/-- Whether the file was in order. -/
def isUnchanged (r : Report) : Bool :=
  match r.result with
  | .ok .unchanged => true
  | _ => false

/-- Whether the file was not there and need not be. -/
def isSkipped (r : Report) : Bool :=
  match r.result with
  | .ok .skipped => true
  | _ => false

/-- The kind of the failure, if the file failed. -/
def failureKind? (r : Report) : Option FailureKind :=
  match r.result with
  | .ok _ => none
  | .error failure => some failure.kind

/-- The line that tells what became of the file. -/
def line (mode : Mode) (r : Report) : Line :=
  match r.result with
  | .ok (.sorted tally) =>
    match mode with
    | .check => .failed s!"{r.path.text}: out of order ({tally.moved} entries)"
    | .write => .passed s!"{r.path.text} ({tally.moved} entries moved)"
  | .ok .unchanged => .remark s!"{r.path.text}: already sorted"
  | .ok .skipped => .remark s!"{r.path.text}: no {r.part.name} file, skipped"
  | .error failure => .error s!"{r.path.text} ({r.part.name}): {failure.message}"

end Report

namespace Count

/-- The count over some reports. -/
def ofReports (rs : List Report) : Count where
  sorted := rs.countP Report.changed
  unchanged := rs.countP Report.isUnchanged
  skipped := rs.countP Report.isSkipped
  failed := rs.countP Report.isFailure
  worst := FailureKind.worst? (rs.filterMap Report.failureKind?)

/-- The line that sums up a count. -/
def line (c : Count) : Line :=
  .result s!"{c.sorted} sorted, {c.unchanged} unchanged, {c.skipped} skipped, {c.failed} failed"

/-- The fault, if any, of a command that writes. -/
def fault? (c : Count) : Option CommandFault :=
  c.worst.map (.files c.failed)

/-- The fault, if any, of a command that checks. Failed files count before files out of order. -/
def checkFault? (c : Count) : Option CommandFault :=
  c.fault?.or (if c.sorted > 0 then some (.unsorted c.sorted) else none)

end Count

namespace Invocation

/-- The directory whose settings apply. -/
def settingsDirectory (i : Invocation) (ctx : Context) : Option FilePath :=
  i.projectDirectory.or ctx.directory

/-- The settings that the options specify. -/
def layer (i : Invocation) : Layer where
  filtersSuffix := none
  caseOrder := i.caseOrder
  parallel := if i.sequential then some false else none
  verify := none

end Invocation

variable [Indexes] {m : Type → Type} [Monad m] [FileSystem m]

/-- The settings of a command. -/
def settingsFor (ctx : Context) (i : Invocation) : m (Except CommandFault Settings) := do
  let globalPath := globalSettingsPath? ctx.environment
  match ← Settings.load globalPath (i.settingsDirectory ctx) ctx.environment with
  | .error fault => return .error (.failure (.settings fault))
  | .ok settings => return .ok (settings.overlay i.layer)

/-- The projects that some paths stand for. There must be one. -/
def findProjects (paths : List FilePath) : m (Except CommandFault (List FilePath)) := do
  match ← search paths with
  | .error failure => return .error (.failure failure)
  | .ok [] => return .error (.invalidArguments "no project files found")
  | .ok found => return .ok found

/-- Sort files, one after the other. -/
def sortFiles (settings : Settings) : List FilePath → m (List Report)
  | [] => return []
  | p :: ps => do
    let result ← runFile settings .write p
    let reports ← sortFiles settings ps
    return ⟨p, settings.partOf p, result⟩ :: reports

/-- Sort single files. -/
def runSort (ctx : Context) (i : Invocation) (files : List FilePath) : m Output := do
  match ← settingsFor ctx i with
  | .error fault => return .failed fault
  | .ok settings =>
    let reports ← sortFiles settings files
    return ⟨reports.map (·.line .write), (Count.ofReports reports).fault?⟩

/-- The reports on the files of the projects that some paths stand for. -/
def reportProjects (ctx : Context) (i : Invocation) (mode : Mode) (paths : List FilePath) :
    m (Except CommandFault (List Report)) := do
  match ← settingsFor ctx i with
  | .error fault => return .error fault
  | .ok settings =>
    match ← findProjects paths with
    | .error fault => return .error fault
    | .ok projects =>
      let reports ← runProjects settings mode projects
      return .ok (reports.flatMap PairReport.files)

/-- Sort projects and sum up. -/
def runProjectCommand (ctx : Context) (i : Invocation) (paths : List FilePath) : m Output := do
  match ← reportProjects ctx i .write paths with
  | .error fault => return .failed fault
  | .ok reports =>
    let count := Count.ofReports reports
    return ⟨reports.map (·.line .write) ++ [count.line], count.fault?⟩

/-- Check projects. -/
def runCheck (ctx : Context) (i : Invocation) (paths : List FilePath) : m Output := do
  match ← reportProjects ctx i .check paths with
  | .error fault => return .failed fault
  | .ok reports =>
    let lines := reports.map (·.line .check)
    match (Count.ofReports reports).checkFault? with
    | some fault => return ⟨lines, some fault⟩
    | none => return .succeeded (lines ++ [.passed "all files sorted"])

/-- Show the settings that apply. -/
def runShow (ctx : Context) (i : Invocation) : m Output := do
  match ← settingsFor ctx i with
  | .error fault => return .failed fault
  | .ok settings => return .succeeded [.result settings.toToml]

/-- The line that tells where a settings file is looked for. -/
def pathLine (label : String) (path : FilePath) : m Line := do
  let state := if ← FileSystem.present path then "exists" else "not found"
  return .labelled label s!"{path.text} ({state})"

/-- What is told when there is no place for the settings of a user. -/
def noGlobalDirectory : String :=
  "no global config directory on this platform"

/-- Tell where the settings files are looked for. -/
def runPath (ctx : Context) (i : Invocation) : m Output := do
  let globalLine ←
    match globalSettingsPath? ctx.environment with
    | some path => pathLine "global" path
    | none => pure (.warning noGlobalDirectory)
  match i.settingsDirectory ctx with
  | some directory =>
    let localLine ← pathLine "local" (localSettingsPath directory)
    return .succeeded [globalLine, localLine]
  | none => return .succeeded [globalLine]

/-- Where a new settings file is to be made. -/
def newSettingsPath (ctx : Context) (i : Invocation) (isGlobal : Bool) :
    Except CommandFault FilePath :=
  if isGlobal then
    match globalSettingsPath? ctx.environment with
    | some path => .ok path
    | none => .error (.usage noGlobalDirectory)
  else
    match i.settingsDirectory ctx with
    | some directory => .ok (localSettingsPath directory)
    | none => .error (.usage "cannot determine project directory")

/-- Make the directory of a file. -/
def makeParent (path : FilePath) : m (Except CommandFault Unit) := do
  match path.parent? with
  | none => return .ok ()
  | some parent =>
    match ← FileSystem.createDirectories parent with
    | .error _ => return .error (.io s!"create {parent.text}")
    | .ok () => return .ok ()

/-- Make a settings file to start from. One that is there already stays as it is. -/
def makeSettingsFile (path : FilePath) : m Output := do
  if ← FileSystem.present path then
    return .failed (.usage s!"config already exists: {path.text}")
  match ← makeParent path with
  | .error fault => return .failed fault
  | .ok () =>
    match ← FileSystem.write path Settings.template.toUTF8 with
    | .error _ => return .failed (.io s!"write {path.text}")
    | .ok () => return .succeeded [.labelled "Created" path.text]

/-- Carry out what a command line asks for. -/
def Invocation.run (ctx : Context) (i : Invocation) : m Output :=
  match i.command with
  | some (.sort files) => runSort ctx i files
  | some (.project paths) => runProjectCommand ctx i paths
  | some (.check paths) => runCheck ctx i paths
  | some .configShow => runShow ctx i
  | some (.configInit isGlobal) =>
    match newSettingsPath ctx i isGlobal with
    | .error fault => return .failed fault
    | .ok path => makeSettingsFile path
  | some .configPath => runPath ctx i
  | some (.completion _) => return .succeeded []
  | none => return .failed (.usage "no command given, see --help")

end ProjectOrder
