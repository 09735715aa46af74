import ProjectOrder.Files.FileSystem
import ProjectOrder.Collation.CaseOrder

/-!
# Faults of settings

Why no settings can be made of the files and variables that hold them.
-/

namespace ProjectOrder

/-- Why settings cannot be loaded. -/
inductive SettingsFault where
  | unreadable (path : FilePath) (fault : IoFault)
  | notText (path : FilePath)
  | malformed (path : FilePath)
  | caseOrder (fault : CaseOrder.Unknown)
  | emptySuffix
deriving DecidableEq, Repr

/-- The wording of the fault. -/
def SettingsFault.message : SettingsFault → String
  | unreadable path fault => s!"read {path.text}: {fault.message}"
  | notText path => s!"read {path.text}: stream did not contain valid UTF-8"
  | malformed path => s!"parse {path.text}"
  | caseOrder fault => fault.message
  | emptySuffix => "filters_suffix must not be empty"

end ProjectOrder
