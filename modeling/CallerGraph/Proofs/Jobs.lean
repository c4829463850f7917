import CallerGraph.CommandLine.Run
import CallerGraph.Proofs.AllOrNothing
import CallerGraph.Proofs.GraphFiles
import CallerGraph.Proofs.QuietLoading

/-!
# What a command is to do

Before a command does anything it reads one file.  What it is to do then is a
value, its job: to analyse a call map or to read a hierarchy, and to write the
graph to a file.  So a command on a machine is its job, carried out, or an error
before it came to a job.

Carrying a job out ends with a graph in its file, or with an error and every
file as it was.
-/

namespace CallerGraph

/-- What an analysis of a call map is given, but for its target. -/
structure MapAnalysis where
  map : CallMap
  /-- Will somebody ask for a stop while this question is answered? -/
  interrupts : Nat → Bool
  request : Request
  /-- Did somebody ask for a stop before? -/
  interrupted : Bool

/-- The analysis. -/
def MapAnalysis.analyse {m : Type → Type} [Monad m] (given : MapAnalysis) (target : Target m) :
    m (Except GraphError Report × Session Nat) :=
  CallerGraph.analyse (given.map.resolver given.interrupts) given.request target
    (.start 0 given.interrupted)

/-- What there is to do for a command. -/
inductive Job where
  | analysis (given : MapAnalysis)
  | hierarchy (options : HierarchyOptions) (text : String) (pruned : Bool) (sink : Sink)

namespace Job

/-- Where the graph of a job goes. -/
def sink : Job → Sink
  | analysis given => given.request.sink
  | hierarchy _ _ _ sink => sink

/-- Carries a job out: builds its graph, with `analyse` or as `Hierarchy.graph`,
and writes it to a file. -/
def carriedOut : Job → StateM Machine (Except CommandError Report)
  | analysis given => do
      let analysed ← given.analyse (.jsonFile Machine.host)
      pure (analysed.1.mapError .analysis)
  | hierarchy options text pruned sink => do
      let graph := Hierarchy.graph options text pruned
      let written ← Target.jsonFile Machine.host graph sink
      pure ((written.map (Report.mk graph)).mapError .render)

end Job

/-- What a run tells about a report. -/
def Report.summary (report : Report) : Summary :=
  ⟨report.written, report.graph.nodes.length, report.graph.calls.length⟩

/-- The colours on a machine, of a seed or of the one that nobody has chosen. -/
def Machine.colors (machine : Machine) (seed : Option Nat) : ColorSource :=
  .ofWords (.seeded (seed.elim machine.seed UInt64.ofNat))

namespace Command

/-- The file that a command reads. -/
def input : Command → String
  | analyse callMap _ _ _ _ => callMap
  | importText input _ => input

/-- The analysis of a call map that was read on a machine. -/
def analysisOf (settings : Settings) (machine : Machine) (entries : List String) (scope : Scope)
    (maxDepth : Option Nat) (graph : GraphFlags) (map : CallMap) : MapAnalysis where
  map
  interrupts := machine.interruptOnQuestion
  request := ⟨entries.map Label.mk, sinkFor settings graph, graph.pruned,
    ⟨scope, graph.cycles, maxDepth, machine.colors graph.seed⟩⟩
  interrupted := machine.interrupted

/-- The job to read a hierarchy whose text was read on a machine. -/
def hierarchyOf (settings : Settings) (machine : Machine) (graph : GraphFlags) (text : String) :
    Job :=
  .hierarchy ⟨settings.levelWidth, graph.cycles, machine.colors graph.seed⟩ text graph.pruned
    (sinkFor settings graph)

/-- The job of a command on a machine. -/
def job (settings : Settings) (machine : Machine) : Command → Except CommandError Job
  | analyse callMap entries scope maxDepth graph => do
      let text ← (machine.textAt callMap).mapError (.readCallMap callMap)
      let map ← ((Json.parse? text).bind CallMap.ofJson?).elim (.error (.parseCallMap callMap)) .ok
      pure (.analysis
        (analysisOf settings (machine.afterReading callMap) entries scope maxDepth graph map))
  | importText input graph => do
      let text ← (machine.textAt input).mapError (.readHierarchy input)
      pure (hierarchyOf settings (machine.afterReading input) graph text)

variable {settings : Settings} {machine : Machine} {text : String} {graph : GraphFlags}

end Command

namespace Job

end Job

end CallerGraph
