import CallerGraph.CommandLine.Flags
import CallerGraph.Json.Merge
import CallerGraph.Json.Number
import CallerGraph.Settings.Basic
import CallerGraph.Text.Digit

/-!
# Layers of settings

Settings come in layers: the standard ones, a file, variables, and flags.
A layer is an object that gives values to some of the settings. Later
layers are laid over earlier ones, and only what comes out in the end is
looked at: a value of the wrong kind does no harm where a later layer has
another one, and names that are no settings do no harm at all.
-/

namespace CallerGraph

namespace Layer

/-- The name of the flag for a setting. -/
def flagName (name : String) : String :=
  name.map fun c => if c = '_' then '-' else c

/-- The value of a setting given as a flag, which the flag has accepted. -/
def valueOfFlag (name value : String) : Json :=
  if name = "indent_width" then
    match Text.unsigned? Settings.widthBound value with
    | some width => .ofNat width
    | none => .null
  else if name = "log_format" then .string (value.map Char.toLower)
  else .string value

/-- The layer of flags. -/
def ofFlags (given : Given) : Json :=
  .object (Settings.fieldNames.filterMap fun name =>
    (given.lookup (flagName name)).map fun value => (name, valueOfFlag name value))

end Layer

namespace Settings

/-- The settings of layers, the lowest first. -/
def ofLayers? (layers : List Json) : Option Settings :=
  ofJson? (layers.foldl Json.merge standard.toJson)

end Settings

end CallerGraph
