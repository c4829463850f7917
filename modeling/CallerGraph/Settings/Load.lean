import CallerGraph.Files.Host
import CallerGraph.Settings.Layer
import CallerGraph.Settings.Variable
import CallerGraph.Toml.Reader

/-!
# Loading settings

The arguments for the settings are read first. Then a file is looked for:
the one that `--config-path` names, which has to be there, or else the one
that a variable names, or else the one in the current directory. A file
that is there but cannot be read is passed over for the next one, and told
about when it had to be there or when no other was found.

A file can extend another one, which it names by a path from its own
directory. It is then laid over the file that it extends, which has to be
there. No file extends itself, not even by way of others.

Whatever goes wrong, loading goes on with the layers that are there, and
everything that went wrong is told at once.
-/

namespace CallerGraph

/-- One thing that went wrong with the settings. -/
inductive SettingsFault where
  | commandLine (error : UsageError)
  /-- The file cannot be read, or is no TOML, or extends no file. -/
  | file (path : String)
  /-- The file is TOML by the newer edition alone. -/
  | newerEdition (path : String)
  /-- The file extends itself. -/
  | cyclic (path : String)
  /-- Taken together, the layers give some setting an unsuitable value. -/
  | unsuitableValue
deriving DecidableEq, Repr

namespace SettingsFault

/-- The wording of the fault. -/
def message : SettingsFault → String
  | commandLine .help => "help was asked for among the settings"
  | commandLine error => error.message
  | file path => "cannot read configuration file " ++ path
  | newerEdition path => "configuration file " ++ path ++ " is not written in TOML 1.0"
  | cyclic path => "configuration file " ++ path ++ " extends itself"
  | unsuitableValue => "unsuitable value for a setting"

end SettingsFault

/-- Everything that went wrong with the settings, at least one thing. -/
structure SettingsError where
  first : SettingsFault
  others : List SettingsFault
deriving DecidableEq, Repr

namespace SettingsError

/-- The wording of the error. -/
def message (error : SettingsError) : String :=
  "; ".intercalate ((error.first :: error.others).map SettingsFault.message)

/-- The error of a list of faults, if there are any. -/
def ofFaults? : List SettingsFault → Option SettingsError
  | [] => none
  | first :: others => some ⟨first, others⟩

end SettingsError

/-- What came of looking for a file with settings. -/
inductive FoundLayer where
  | missing
  | faulty (fault : SettingsFault)
  | layer (value : Json)

namespace Settings

/-- The flag that names a file with settings. -/
def pathFlag : String := "config-path"

/-- The variable that names a file with settings. -/
def pathVariable : String := "CALLCHAIN_CONFIG_PATH"

/-- The file with settings in the current directory. -/
def localFile : String := ".callchain.toml"

/-- The field of a file that names the file which it extends. -/
def baseField : String := "extends"

/-- Files with these extensions hold documents of other kinds, which are
not read. -/
def foreignExtensions : List String :=
  ["json", "json5", "yaml", "yml"]

/-- At most this many files extend each other. -/
def chainLimit : Nat := 1000

/-- The flags for settings. -/
def flags : List Flag :=
  [.option pathFlag (· != ""),
    { Flag.option "log-filter" (fun _ => true) with letter := some 'l' },
    { Flag.option "log-format" (fun value => (LogFormat.parse value).isOk) with
      letter := some 'L' },
    { Flag.option "output-dir" (fun _ => true) with letter := some 'o' },
    { Flag.option "indent-width" (fun value => (Text.unsigned? widthBound value).isSome) with
      letter := some 'i' }]

/-- The layer in the text of a file. The newer edition tells whether the
text is TOML at all, the older one what it means. -/
def layerOfText (path text : String) : Except SettingsFault Json :=
  match Toml.parse? .newer text, Toml.parse? .older text with
  | none, _ => .error (.file path)
  | some _, none => .error (.newerEdition path)
  | some _, some layer => .ok layer

/-- The path of the file that a layer extends, if it extends one. -/
def base? (path : String) : Json → Except SettingsFault (Option String)
  | .object fields =>
      match fields.lookup baseField with
      | none => .ok none
      | some (.string base) => if base = "" then .error (.file path) else .ok (some base)
      | some _ => .error (.file path)
  | _ => .ok none

variable {m : Type → Type} [Monad m]

/-- The layer in a file alone. -/
def readFile (host : Host m) (path : String) : m (Except SettingsFault Json) := do
  match ← host.readText path with
  | .error _ => pure (.error (.file path))
  | .ok text =>
      let isForeign := (Path.extension? path).any fun extension =>
        foreignExtensions.contains (extension.map Char.toLower)
      pure (if isForeign then .error (.file path) else layerOfText path text)

/-- The layer in a file laid over the ones that it extends. The files that
extend it already are known by their canonical paths. -/
def readChain (host : Host m) : Nat → List String → String → m FoundLayer
  | 0, _, path => pure (.faulty (.cyclic path))
  | budget + 1, above, path => do
      match ← host.canonicalPath path with
      | .error .missing => pure .missing
      | .error _ => pure (.faulty (.file path))
      | .ok place =>
          if above.contains place then pure (.faulty (.cyclic path))
          else
            match ← readFile host place with
            | .error fault => pure (.faulty fault)
            | .ok layer =>
                match base? path layer with
                | .error fault => pure (.faulty fault)
                | .ok none => pure (.layer layer)
                | .ok (some base) =>
                    match ← readChain host budget (place :: above)
                        (Path.join (Path.parent place) base) with
                    | .missing => pure (.faulty (.file path))
                    | .faulty fault => pure (.faulty fault)
                    | .layer below => pure (.layer (below.merge layer))

/-- Looks for a file with settings. -/
def findLayer (host : Host m) (path : String) : m FoundLayer :=
  readChain host chainLimit [] path

/-- The first layer of the files at some paths, and what is wrong with the
files before it. -/
def firstLayer (host : Host m) : List String → m (Option Json × List SettingsFault)
  | [] => pure (none, [])
  | path :: paths => do
      match ← findLayer host path with
      | .layer layer => pure (some layer, [])
      | .missing => firstLayer host paths
      | .faulty fault =>
          let (layer, faults) ← firstLayer host paths
          pure (layer, fault :: faults)

/-- The layer of a file, and what went wrong with files. The file that has
to be there is not looked for a second time under the same path. -/
def fileLayer (host : Host m) (required : Option String)
    (environment : List (String × String)) : m (Option Json × List SettingsFault) := do
  let named := (environment.lookup pathVariable).filter fun path => required ≠ some path
  let (asked, faults) ← match required with
    | none => pure (none, [])
    | some path => do
        match ← findLayer host path with
        | .layer layer => pure (some layer, [])
        | .missing => pure (none, [SettingsFault.file path])
        | .faulty fault => pure (none, [fault])
  match asked with
  | some layer => pure (some layer, faults)
  | none =>
      let (layer, passed) ← firstLayer host (named.toList ++ [localFile])
      pure (layer, if layer.isSome then faults else faults ++ passed)

/-- Do flags give every setting its standard value, and nothing else? Such
flags count as not given. -/
def repeatStandard (given : Given) : Bool :=
  !given.has pathFlag && fieldNames.all (fun name => given.has (Layer.flagName name)) &&
    decide (ofJson? (Layer.ofFlags given) = some standard)

/-- Loads the settings for the arguments behind the name of the program. -/
def load (host : Host m) (arguments : List String) : m (Except SettingsError Settings) := do
  let read := Flag.read flags [] arguments
  let (given, flagFaults) := match read with
    | .ok given => (given, [])
    | .error error => ([], [SettingsFault.commandLine error])
  let environment ← host.environment
  let (file, fileFaults) ← fileLayer host (given.lookup pathFlag) environment
  let fromFlags := if repeatStandard given then [] else [Layer.ofFlags given]
  let merged := ofLayers? (file.toList ++ Variable.collect environment :: fromFlags)
  let valueFaults := if merged.isSome then [] else [SettingsFault.unsuitableValue]
  match SettingsError.ofFaults? (flagFaults ++ fileFaults ++ valueFaults), merged with
  | none, some settings => pure (.ok settings)
  | some error, _ => pure (.error error)
  | none, none => pure (.error ⟨.unsuitableValue, []⟩)

end Settings

end CallerGraph
