import ProjectOrder.Settings.Document
import ProjectOrder.Settings.Fault
import ProjectOrder.Text.Letter

/-!
# Settings from the environment

Variables named `VCXSORT_` and the key of a setting, in any case of letters, specify that setting. A
doubled underscore stands for a nested key, which is no setting.
-/

namespace ProjectOrder

/-- The variables of the environment, by name. -/
abbrev Environment := List (String × String)

namespace Environment

/-- The variables of a block of assignments that are ended by null characters. -/
def ofBlock (block : String) : Environment :=
  ((block.toList.splitOn '\x00').filter (· ≠ [])).map fun assignment =>
    (String.ofList (assignment.takeWhile (· ≠ '=')),
      String.ofList ((assignment.dropWhile (· ≠ '=')).drop 1))

/-- The lowercase form of a text. -/
def lowered (s : String) : List Char :=
  s.toList.flatMap Text.lowercase

/-- The beginning that the names of all variables for settings share. -/
def lead : List Char := "vcxsort_".toList

/-- Whether the name of a variable is the shared beginning and then a key. -/
def names (key name : String) : Bool :=
  lowered name = lead ++ key.toList

/-- The text of the variable for a setting. -/
def text? (env : Environment) (key : String) : Option String :=
  (env.find? fun v => names key v.1).map (·.2)

/-- The truth value of a text, if it is one of the accepted words in any case of letters. -/
def flag? (s : String) : Option Bool :=
  let word := String.ofList (lowered s)
  if word ∈ ["1", "true", "on", "yes"] then some true
  else if word ∈ ["0", "false", "off", "no"] then some false
  else none

/-- The layer that the environment specifies with some case order. Texts that are no truth values
specify nothing. -/
def layerWith (env : Environment) (caseOrder : Option CaseOrder) : Layer where
  filtersSuffix := env.text? Layer.filtersSuffixKey
  caseOrder
  parallel := (env.text? Layer.parallelKey).bind flag?
  verify := (env.text? Layer.verifyKey).bind flag?

/-- The layer that the environment specifies. A text that is no case order is a fault. -/
def layer (env : Environment) : Except SettingsFault Layer :=
  match env.text? Layer.caseOrderKey with
  | none => .ok (env.layerWith none)
  | some s =>
    match CaseOrder.parse s with
    | .ok order => .ok (env.layerWith (some order))
    | .error fault => .error (.caseOrder fault)

end Environment

end ProjectOrder
