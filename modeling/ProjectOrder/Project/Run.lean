import ProjectOrder.Document.Arrangement
import ProjectOrder.Project.Failure
import ProjectOrder.Settings.Basic

/-!
# Sorting files

One run on a file reads it, plans what to do and, unless it only checks, carries the plan out by one
write. Reading and planning change nothing; `Plan.ofContent` is a function of the content alone. A
project is two files, its item list and its filters file, which succeed or fail each on its own.
-/

namespace ProjectOrder

/-- What there is to do about a file. -/
inductive Plan where
  /-- The entries are in order. -/
  | keep
  /-- The entries are to be moved, which makes this output. -/
  | replace (tally : Tally) (output : ByteArray)

instance instDecidableEqPlan : DecidableEq Plan
  | .keep, .keep => isTrue rfl
  | .keep, .replace .. => isFalse nofun
  | .replace .., .keep => isFalse nofun
  | .replace tally output, .replace tally' output' =>
    have := ByteArray.instDecidableEq output output'
    decidable_of_iff (tally = tally' ∧ output = output') (by simp)

variable [Indexes]

/-- Whether an output has the entries that there were before, in any order. -/
def verifyOutput (before : List Entry) (output : ByteArray) : Except Failure Unit :=
  match Document.read output with
  | .error fault => .error (.outputMalformed fault)
  | .ok d =>
    if Entry.inventory before = Entry.inventory d.entries then .ok ()
    else .error (.entriesChanged before.length d.entries.length)

/-- The plan for a content. -/
def Plan.ofContent (settings : Settings) (content : ByteArray) : Except Failure Plan :=
  match Document.read content with
  | .error fault => .error (.malformed fault)
  | .ok d =>
    let tally := d.tally settings.caseOrder
    if tally.changed then
      match (d.sort settings.caseOrder).write with
      | .error fault => .error (.unwritable fault)
      | .ok output =>
        if settings.verify then
          match verifyOutput d.entries output with
          | .error failure => .error failure
          | .ok () => .ok (.replace tally output)
        else .ok (.replace tally output)
    else .ok .keep

/-- What became of a file. -/
inductive Outcome where
  /-- Entries moved, or would move if the run did not only check. -/
  | sorted (tally : Tally)
  | unchanged
  /-- There is no such file, and there need not be. -/
  | skipped
deriving DecidableEq, Repr

/-- Whether a run writes its output. -/
inductive Mode where
  | write
  | check
deriving DecidableEq, Repr

variable {m : Type → Type} [Monad m] [FileSystem m]

/-- The first half of a run: read a file and plan. -/
def examine (settings : Settings) (path : FilePath) : m (Except Failure Plan) := do
  if ← FileSystem.present path then
    match ← FileSystem.read path with
    | .error fault => return .error (.ofIo "read" path fault)
    | .ok content => return Plan.ofContent settings content
  else return .error (.notFound path)

/-- The second half of a run: carry a plan out. -/
def carryOut (mode : Mode) (path : FilePath) : Plan → m (Except Failure Outcome)
  | .keep => return .ok .unchanged
  | .replace tally output => do
    match mode with
    | .check => return .ok (.sorted tally)
    | .write =>
      match ← FileSystem.replace path output with
      | .error fault => return .error (.ofIo "write" path fault)
      | .ok () => return .ok (.sorted tally)

/-- Sort or check one file. A missing file is a failure. -/
def runFile (settings : Settings) (mode : Mode) (path : FilePath) : m (Except Failure Outcome) := do
  match ← examine settings path with
  | .error failure => return .error failure
  | .ok plan => carryOut mode path plan

/-- The two files of a project. -/
inductive ProjectPart where
  | itemList
  | filters
deriving DecidableEq, Repr

/-- The name of a part in messages. -/
def ProjectPart.name : ProjectPart → String
  | itemList => "item list"
  | filters => "filters"

namespace Settings

/-- The path of the filters file that belongs to an item list. -/
def companion (s : Settings) (itemList : FilePath) : FilePath :=
  ⟨itemList.text ++ s.filtersSuffix⟩

/-- The part that a file is by its name: a filters file has the suffix after a name of its own. -/
def partOf (s : Settings) (path : FilePath) : ProjectPart :=
  match path.fileName? with
  | some name =>
    if name.length > s.filtersSuffix.length ∧ s.filtersSuffix.toList.isSuffixOf name.toList then
      .filters
    else .itemList
  | none => .itemList

end Settings

/-- What became of one file. -/
structure Report where
  path : FilePath
  part : ProjectPart
  result : Except Failure Outcome

namespace Report

/-- Whether the file failed. -/
def isFailure (r : Report) : Bool :=
  !r.result.toBool

/-- Whether the file is, or would be, changed. -/
def changed (r : Report) : Bool :=
  match r.result with
  | .ok (.sorted _) => true
  | _ => false

end Report

/-- What became of a project. -/
structure PairReport where
  itemList : Report
  filters : Report

namespace PairReport

/-- The reports of both files, the item list first. -/
def files (r : PairReport) : List Report :=
  [r.itemList, r.filters]

/-- Whether a file of the project failed. -/
def hasFailure (r : PairReport) : Bool :=
  r.files.any Report.isFailure

end PairReport

/-- Sort or check a project: its item list and then, if there is one, its filters file. -/
def runProject (settings : Settings) (mode : Mode) (itemList : FilePath) : m PairReport := do
  let filters := settings.companion itemList
  let itemResult ← runFile settings mode itemList
  let filtersResult ←
    if ← FileSystem.present filters then runFile settings mode filters
    else pure (.ok .skipped)
  return ⟨⟨itemList, .itemList, itemResult⟩, ⟨filters, .filters, filtersResult⟩⟩

/-- Sort or check projects, one after the other. -/
def runProjects (settings : Settings) (mode : Mode) : List FilePath → m (List PairReport)
  | [] => return []
  | p :: ps => do
    let report ← runProject settings mode p
    let reports ← runProjects settings mode ps
    return report :: reports

end ProjectOrder
