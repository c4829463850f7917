import CallerGraph.CommandLine.Flags
import CallerGraph.Exploration.Scope
import CallerGraph.Text.Digit

/-!
# Commands

There are two commands. `analyse` explores the callers of entry methods in
a call map, `import` reads an indented hierarchy; both write the graph to
a file. Their flags are read by `Command.parse`, which answers a command
only if nothing is wrong with any argument.
-/

namespace CallerGraph

/-- What both commands have in common. -/
structure GraphFlags where
  /-- The name of the file to write, without its extension. -/
  name : String
  pruned : Bool
  cycles : CyclePolicy
  /-- The seed of the colours. -/
  seed : Option Nat
deriving DecidableEq, Repr

/-- A command with its flags. -/
inductive Command where
  | analyse (callMap : String) (entries : List String) (scope : Scope) (maxDepth : Option Nat)
      (graph : GraphFlags)
  | importText (input : String) (graph : GraphFlags)
deriving DecidableEq, Repr

namespace Command

/-- The name of a graph where none is given. -/
def defaultName : String := "callchain"

/-- The bound for depths. -/
def depthBound : Nat := UInt32.size

/-- The bound for seeds. -/
def seedBound : Nat := UInt64.size

/-- The scopes by the names that the flag has for them. -/
def scopeNames : List (String × Scope) :=
  [Scope.all, Scope.productionOnly, Scope.testOnly].map fun scope => (scope.name, scope)

/-- A flag for a file, which has to have a name. -/
def fileFlag (name : String) : Flag :=
  .option name (· != "")

/-- The flags that both commands have. -/
def graphFlags : List Flag :=
  [.option "name" fun _ => true, .switch "prune", .switch "mark-cycles",
    .option "seed" fun value => (Text.unsigned? seedBound value).isSome]

/-- The flags of `analyse`. -/
def analyseFlags : List Flag :=
  [fileFlag "call-map",
    { Flag.option "entry" (fun _ => true) with mayRepeat := true },
    .option "scope" fun value => (scopeNames.lookup value).isSome,
    .option "max-depth" fun value => (Text.signed? depthBound value).isSome] ++ graphFlags

/-- The flags of `import`. -/
def importFlags : List Flag :=
  fileFlag "input" :: graphFlags

/-- The common flags as they were given. -/
def graphOf (given : Given) : GraphFlags where
  name := (given.lookup "name").getD defaultName
  pruned := given.has "prune"
  cycles := if given.has "mark-cycles" then .mark else .drop
  seed := (given.lookup "seed").bind (Text.unsigned? seedBound)

/-- The value of a flag that has to be given. -/
def required (given : Given) (name : String) : Except UsageError String :=
  match given.lookup name with
  | some value => .ok value
  | none => .error (.missingFlag name)

/-- Reads the arguments of `analyse`. -/
def parseAnalyse (arguments : List String) : Except UsageError Command := do
  let given ← Flag.read analyseFlags [] arguments
  let callMap ← required given "call-map"
  let _ ← required given "entry"
  pure (.analyse callMap (given.all "entry")
    (((given.lookup "scope").bind fun name => scopeNames.lookup name).getD .all)
    ((given.lookup "max-depth").bind (Text.signed? depthBound)) (graphOf given))

/-- Reads the arguments of `import`. -/
def parseImport (arguments : List String) : Except UsageError Command := do
  let given ← Flag.read importFlags [] arguments
  let input ← required given "input"
  pure (.importText input (graphOf given))

/-- Reads a command: its name, and its arguments behind it. -/
def parse : List String → Except UsageError Command
  | [] => .error .missingCommand
  | "analyse" :: arguments => parseAnalyse arguments
  | "import" :: arguments => parseImport arguments
  | argument :: _ =>
      if argument = "--help" ∨ "-h".toList.isPrefixOf argument.toList then .error .help
      else .error (.unknownCommand argument)

/-- What there is to say about the commands. -/
def helpText : String :=
  "Usage: callchain [SETTINGS] <COMMAND>\n\nCommands:\n" ++
  "  analyse --call-map <PATH> --entry <LABEL>... [--scope all|production|test]\n" ++
  "          [--max-depth <N>] [--name <NAME>] [--prune] [--mark-cycles] [--seed <N>]\n" ++
  "  import  --input <PATH> [--name <NAME>] [--prune] [--mark-cycles] [--seed <N>]\n"

end Command

end CallerGraph
