import ODataEngine.Settings.Basic
import ODataEngine.Settings.Variables
import ODataEngine.Yaml.Document

/-!
# Layers of settings

Settings come in layers: the usual ones, those of a file, those of variables. A layer above replaces
the values below it; only maps are joined, member by member. All members of the outcome are sorted
by name.
-/

namespace ODataEngine

/-- Why there are no settings. -/
inductive SettingsError where
  | noFile (path : String)
  | invalid
deriving DecidableEq

/-- The wording of a settings error. -/
def SettingsError.message : SettingsError → String
  | noFile path => s!"config file does not exist: {path}"
  | invalid => "invalid configuration"

namespace Settings

/-- The settings of a file and of the environment, laid over the usual ones. -/
def load (file : Option String) (environment : List (String × String)) :
    Except SettingsError Settings := do
  let usual : Settings := {}
  let filed ←
    match file.map Yaml.settings? with
    | some (some members) => .ok members
    | some none => .error .invalid
    | none => .ok []
  let given := environment.filterMap fun (name, value) => Variables.settingOf name value
  let above := given.foldl Setting.overlay (.map [])
  -- the usual settings at the bottom, then the file, then the variables
  match ((Setting.ofJson (.object usual.document)).overlay (.map filed) |>.overlay above).sorted with
  | .map members =>
    match ofMembers? members with
    | some s => return s
    | none => throw .invalid
  | _ => throw .invalid

end Settings

end ODataEngine
