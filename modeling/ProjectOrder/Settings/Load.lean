import ProjectOrder.Settings.Environment

/-!
# Loading settings

The settings are layered: defaults at the bottom, then the global file, the file of the project
directory, and the environment on top. A file that is not there is no layer.
-/

namespace ProjectOrder

/-- The name of the settings file in a project directory. -/
def localFileName : String := ".vcxsort.toml"

/-- The settings file of a project directory. -/
def localSettingsPath (directory : FilePath) : FilePath :=
  directory.join localFileName

/-- The settings file of a user: under the directory for configuration if that is named by an
absolute path, and otherwise under the home directory. -/
def globalSettingsPath? (env : Environment) : Option FilePath :=
  let named := (env.lookup "XDG_CONFIG_HOME").filter fun dir => FilePath.isAbsolute ⟨dir⟩
  let home := ((env.lookup "HOME").filter (· ≠ "")).map fun home =>
    (FilePath.join ⟨home⟩ ".config").text
  (named.or home).map fun dir => ((FilePath.join ⟨dir⟩ "vcxsort").join "vcxsort.toml")

namespace Layer

/-- The layer of a file's content. -/
def ofContent (path : FilePath) (content : ByteArray) : Except SettingsFault Layer :=
  match String.fromUTF8? content with
  | none => .error (.notText path)
  | some text =>
    match parse? text with
    | none => .error (.malformed path)
    | some layer => .ok layer

variable {m : Type → Type} [Monad m] [FileSystem m]

/-- The layer of a file; one that is not there specifies nothing. -/
def load (path : Option FilePath) : m (Except SettingsFault Layer) := do
  match path with
  | none => return .ok .empty
  | some path =>
    if ← FileSystem.present path then
      match ← FileSystem.read path with
      | .error fault => return .error (.unreadable path fault)
      | .ok content => return ofContent path content
    else return .ok .empty

end Layer

namespace Settings

/-- Settings may be used with a suffix; without one the filters file would be the item list
itself. -/
def check (s : Settings) : Except SettingsFault Settings :=
  if s.filtersSuffix = "" then .error .emptySuffix else .ok s

/-- The settings made of the layers of both files and of the environment. -/
def ofLayers (globalLayer localLayer : Layer) (env : Environment) :
    Except SettingsFault Settings := do
  let top ← env.layer
  check (((default.overlay globalLayer).overlay localLayer).overlay top)

variable {m : Type → Type} [Monad m] [FileSystem m]

/-- Load the settings for a project directory. -/
def load (globalPath directory : Option FilePath) (env : Environment) :
    m (Except SettingsFault Settings) := do
  match ← Layer.load globalPath with
  | .error fault => return .error fault
  | .ok globalLayer =>
    match ← Layer.load (directory.map localSettingsPath) with
    | .error fault => return .error fault
    | .ok localLayer => return ofLayers globalLayer localLayer env

end Settings

end ProjectOrder
