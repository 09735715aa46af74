import ProjectOrder.Settings.Basic
import ProjectOrder.Toml.Parser

/-!
# Settings as TOML

The layer that a TOML document specifies, the document that shows some settings, and a document to
start from. Keys that are no settings are ignored; a setting of the wrong type makes the whole
document unfit.
-/

namespace ProjectOrder

open Toml (Item Entries)

namespace Layer

/-- The key of the suffix that makes the name of a filters file. -/
def filtersSuffixKey : String := "filters_suffix"

/-- The key of the case order. -/
def caseOrderKey : String := "case_order"

/-- The key of the setting that files are processed side by side. -/
def parallelKey : String := "parallel"

/-- The key of the setting that outputs are verified. -/
def verifyKey : String := "verify"

/-- The text of a string. -/
def text? : Item → Option String
  | .string s => some s
  | _ => none

/-- A truth value. -/
def flag? : Item → Option Bool
  | .boolean b => some b
  | _ => none

/-- Whether an item holds nothing. -/
def isVoid : Item → Bool
  | .array [] | .table _ [] | .tables [] => true
  | _ => false

/-- A case order: its name, or a table with its name as the only key and nothing in it. -/
def caseOrder? : Item → Option CaseOrder
  | .string s => CaseOrder.ofName? s
  | .table _ [(name, item)] => if isVoid item then CaseOrder.ofName? name else none
  | _ => none

/-- What a key specifies: nothing if it is not there, and a fault if its item cannot be read. -/
def field? {α : Type} (es : Entries) (key : String) (read : Item → Option α) :
    Option (Option α) :=
  match es.lookup key with
  | none => some none
  | some item => (read item).map some

/-- The layer of the top-level table of a document. -/
def ofEntries? (es : Entries) : Option Layer := do
  return {
    filtersSuffix := ← field? es filtersSuffixKey text?
    caseOrder := ← field? es caseOrderKey caseOrder?
    parallel := ← field? es parallelKey flag?
    verify := ← field? es verifyKey flag? }

/-- The layer of a document. -/
def parse? (text : String) : Option Layer :=
  (Toml.parse? text).bind ofEntries?

end Layer

namespace Settings

/-- A line of a document: a key and the text of its value. -/
def line (key value : String) : String :=
  key ++ " = " ++ value ++ "\n"

/-- The document that specifies all settings as they are. -/
def toToml (s : Settings) : String :=
  line Layer.filtersSuffixKey (Toml.Quoted.write s.filtersSuffix) ++
    line Layer.caseOrderKey (Toml.Quoted.write s.caseOrder.name) ++
    line Layer.parallelKey (toString s.parallel) ++
    line Layer.verifyKey (toString s.verify)

/-- A document to start from: it explains the settings and specifies none. -/
def template : String :=
  String.join <| [
    "# vcxsort configuration",
    "#",
    "# Locations (by precedence, lowest to highest):",
    "#   Global: ~/.config/vcxsort/vcxsort.toml",
    "#   Local:  <project_dir>/.vcxsort.toml",
    "#   Env:    VCXSORT_* environment variables",
    "",
    "# Suffix appended to a project file to find its filters file",
    "# filters_suffix = \".filters\"",
    "",
    "# Names equal except for case: \"upper_first\" (A.cpp, a.cpp) or \"lower_first\"",
    "# case_order = \"upper_first\"",
    "",
    "# Sort multiple projects concurrently",
    "# parallel = true",
    "",
    "# Re-parse sorted output and compare entries before writing",
    "# verify = true"].map (· ++ "\n")

end Settings

end ProjectOrder
