import CallerGraph.Analysis
import CallerGraph.CallMap
import CallerGraph.CommandLine.Command
import CallerGraph.CommandLine.Split
import CallerGraph.Hierarchy
import CallerGraph.Json.Reader
import CallerGraph.Random.Keystream
import CallerGraph.Settings.LogFilter
import CallerGraph.Settings.Load

/-!
# A run of the program

A run reads its command first, then loads the settings, then checks the
log filter, and only then does anything; what is wrong earlier is told and
what is wrong later is not looked for. It ends with a status:

* 0 when the graph was written, which a line on the standard output says,
  or when help was asked for;
* 130 when the run was interrupted, without a word;
* 1 for everything else, with a message on the standard error output.
-/

namespace CallerGraph

/-- Why a run wrote no graph, or could not say so. -/
inductive CommandError where
  | usage (error : UsageError)
  | settings (error : SettingsError)
  | logFilter (filter : String)
  | readCallMap (path : String) (fault : Fault)
  | parseCallMap (path : String)
  | readHierarchy (path : String) (fault : Fault)
  | analysis (error : GraphError)
  | render (error : RenderError)
  | output (reason : String)
deriving DecidableEq, Repr

namespace CommandError

/-- Was the run interrupted? -/
def isCancellation : CommandError → Bool
  | analysis error => error.isCancellation
  | _ => false

/-- What the run failed to do. A wrong use of the command line speaks for
itself. -/
def lead : CommandError → Option String
  | usage _ => none
  | settings _ => some "failed to load configuration"
  | logFilter _ => some "invalid log filter"
  | readCallMap path _ => some ("failed to read call map " ++ path)
  | parseCallMap path => some ("failed to parse call map " ++ path)
  | readHierarchy path _ => some ("failed to read call hierarchy " ++ path)
  | analysis _ => some "call chain analysis failed"
  | render _ => some "failed to write graph"
  | output _ => some "failed to write summary"

/-- Why it failed. -/
def detail : CommandError → String
  | usage error => error.message
  | settings error => error.message
  | logFilter filter => "'" ++ filter ++ "' holds no list of directives"
  | readCallMap _ fault => fault.message
  | parseCallMap _ => "the document is no call map"
  | readHierarchy _ fault => fault.message
  | analysis error => error.message
  | render error => error.message
  | output reason => reason

/-- The wording of the error. -/
def message (error : CommandError) : String :=
  match error.lead with
  | some lead => lead ++ ": " ++ error.detail
  | none => error.detail

end CommandError

/-- What a run wrote. -/
structure Summary where
  path : String
  nodes : Nat
  edges : Nat
deriving DecidableEq, Repr

/-- The line that tells what was written. -/
def Summary.line (summary : Summary) : String :=
  "wrote " ++ summary.path ++ " (" ++ summary.nodes.repr ++ " nodes, " ++
    summary.edges.repr ++ " edges)\n"

/-- What came of a command, and what there is to tell. -/
structure CommandResult where
  result : Except CommandError Summary
  events : List Event

namespace CommandResult

/-- A command that failed without anything to tell. -/
def failed (error : CommandError) : CommandResult :=
  ⟨.error error, []⟩

end CommandResult

namespace Command

variable {m : Type → Type} [Monad m]

/-- The colours of a seed, or of one that nobody has chosen. -/
def colorsFor (host : Host m) : Option Nat → m ColorSource
  | some seed => pure (.ofWords (.seeded (UInt64.ofNat seed)))
  | none => do
      let seed ← host.freshSeed
      pure (.ofWords (.seeded seed))

/-- Where the graph of a command goes. -/
def sinkFor (settings : Settings) (graph : GraphFlags) : Sink :=
  ⟨settings.outputDir, graph.name⟩

/-- Explores a call map. -/
def executeAnalyse (host : Host m) (settings : Settings) (callMap : String)
    (entries : List String) (scope : Scope) (maxDepth : Option Nat) (graph : GraphFlags) :
    m CommandResult := do
  match ← host.readText callMap with
  | .error fault => pure (.failed (.readCallMap callMap fault))
  | .ok text =>
      match (Json.parse? text).bind CallMap.ofJson? with
      | none => pure (.failed (.parseCallMap callMap))
      | some map => do
          let colors ← colorsFor host graph.seed
          let interrupted ← host.isInterrupted
          let interrupts ← host.interruptsAt
          let request : Request :=
            ⟨entries.map Label.mk, sinkFor settings graph, graph.pruned,
              ⟨scope, graph.cycles, maxDepth, colors⟩⟩
          let (result, session) ←
            CallerGraph.analyse (map.resolver interrupts) request (.jsonFile host)
              (.start 0 interrupted)
          let events := session.events.toList
          match result with
          | .error error => pure ⟨.error (.analysis error), events⟩
          | .ok report =>
              pure ⟨.ok ⟨report.written, report.graph.nodes.length, report.graph.calls.length⟩,
                events⟩

/-- Reads a hierarchy. -/
def executeImport (host : Host m) (settings : Settings) (input : String) (graph : GraphFlags) :
    m CommandResult := do
  match ← host.readText input with
  | .error fault => pure (.failed (.readHierarchy input fault))
  | .ok text => do
      let colors ← colorsFor host graph.seed
      let options : HierarchyOptions := ⟨settings.levelWidth, graph.cycles, colors⟩
      let found := Hierarchy.graph options text graph.pruned
      let events := Hierarchy.events options text graph.pruned
      match ← Target.jsonFile host found (sinkFor settings graph) with
      | .error error => pure ⟨.error (.render error), events⟩
      | .ok path =>
          pure ⟨.ok ⟨path, found.nodes.length, found.calls.length⟩,
            events ++ [.hierarchyImported path found.nodes.length]⟩

/-- Does what a command says. -/
def execute (host : Host m) (settings : Settings) : Command → m CommandResult
  | .analyse callMap entries scope maxDepth graph =>
      executeAnalyse host settings callMap entries scope maxDepth graph
  | .importText input graph => executeImport host settings input graph

/-- Does what a command says, and tells what was written. -/
def executeAndTell (host : Host m) (settings : Settings) (command : Command) :
    m CommandResult := do
  let done ← execute host settings command
  match done.result with
  | .error _ => pure done
  | .ok summary =>
      match ← host.print summary.line with
      | .ok _ => pure done
      | .error reason => pure { done with result := .error (.output reason) }

end Command

/-- How a run ended. -/
structure Finish where
  status : UInt8
  result : Except CommandError Summary
  /-- The settings, if it came to loading them. -/
  settings : Option Settings
  events : List Event

namespace Run

/-- The status of a run that was interrupted. -/
def interruptedStatus : UInt8 := 130

/-- How to load the settings for arguments. -/
abbrev Loader (m : Type → Type) := List String → m (Except SettingsError Settings)

variable {m : Type → Type} [Monad m]

/-- Reads the command, loads the settings, and does what the command
says. -/
def attempt (host : Host m) (load : Loader m) (arguments : List String) :
    m (CommandResult × Option Settings) := do
  let split := ArgumentSplit.ofArguments arguments
  match Command.parse split.command.tail with
  | .error error => pure (.failed (.usage error), none)
  | .ok command =>
      match ← load split.settings.tail with
      | .error error => pure (.failed (.settings error), none)
      | .ok settings => do
          let filterIsRead := (LogFilter.parse? settings.logFilter).isSome
          if !filterIsRead && !(← host.isLogging) then
            pure (.failed (.logFilter settings.logFilter), none)
          else
            let done ← command.executeAndTell host settings
            pure (done, some settings)

/-- Tells how a run went and gives it its status. -/
def conclude (host : Host m) (done : CommandResult) (settings : Option Settings) : m Finish := do
  match done.result with
  | .ok summary => pure ⟨0, .ok summary, settings, done.events⟩
  | .error (.usage .help) => do
      let _ ← host.print Command.helpText
      pure ⟨0, done.result, settings, done.events⟩
  | .error error =>
      if error.isCancellation then
        pure ⟨interruptedStatus, .error error, settings, done.events ++ [.runInterrupted]⟩
      else do
        host.printError (error.message ++ "\n")
        pure ⟨1, .error error, settings, done.events⟩

/-- A run with its own way to load settings. -/
def withLoader (host : Host m) (load : Loader m) (arguments : List String) : m Finish := do
  let (done, settings) ← attempt host load arguments
  conclude host done settings

end Run

/-- A run. The first argument is the name of the program. -/
def run {m : Type → Type} [Monad m] (host : Host m) (arguments : List String) : m Finish :=
  Run.withLoader host (Settings.load host) arguments

end CallerGraph
