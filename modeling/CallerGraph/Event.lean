import CallerGraph.Exploration.Scope
import CallerGraph.Label.Basic

/-!
# Events

What happens while a graph is built is told as a list of events, in
order. An event is a value of its own; its level, its topic, its message
and its fields are functions of it.
-/

namespace CallerGraph

/-- How important an event is. -/
inductive Level where
  | debug
  | info
  | warn
deriving DecidableEq, Repr

/-- The name of a level. -/
def Level.name : Level → String
  | debug => "DEBUG"
  | info => "INFO"
  | warn => "WARN"

/-- The value of a field of an event. -/
inductive FieldValue where
  | text (value : String)
  | number (value : Nat)
  | flag (value : Bool)
deriving DecidableEq, Repr

/-- Something that happened. -/
inductive Event where
  /-- A method got a placeholder because its label cannot be read. -/
  | unreadableLabel (label : Label)
  /-- The callers of a method are about to be followed. -/
  | expanding (method : Label) (callers depth : Nat)
  /-- A caller is already on the chain that led to the method. -/
  | recursiveCall (method caller : Label)
  /-- A line of a hierarchy marks a recursive call. -/
  | recursiveMarker (line : Nat) (label : String)
  /-- A round of pruning takes away entries. -/
  | pruning (removed : Nat)
  | finalised (nodes edges : Nat) (pruned : Bool)
  | analysisStarted (entries : Nat) (scope : Scope)
  | analysisCancelled
  | analysisCompleted (nodes edges : Nat)
  | graphRendered (path : String)
  | hierarchyImported (path : String) (nodes : Nat)
  | runInterrupted
deriving DecidableEq, Repr

namespace Event

/-- The level of an event. -/
def level : Event → Level
  | unreadableLabel _ => .warn
  | analysisCompleted _ _ | graphRendered _ | hierarchyImported _ _ => .info
  | _ => .debug

/-- The topic under which an event can be filtered. -/
def topic : Event → String
  | unreadableLabel _ => "callchain_graph::identity"
  | expanding _ _ _ | recursiveCall _ _ => "callchain_graph::explorer"
  | recursiveMarker _ _ => "callchain_graph::text"
  | pruning _ | finalised _ _ _ => "callchain_graph::assembler"
  | analysisStarted _ _ | analysisCancelled | analysisCompleted _ _ | graphRendered _ =>
      "callchain_graph::analysis"
  | hierarchyImported _ _ | runInterrupted => "callchain_cli"

/-- The fixed message of an event. -/
def message : Event → String
  | unreadableLabel _ => "unable to parse method label; using placeholder node"
  | expanding _ _ _ => "expanding callers"
  | recursiveCall _ _ => "recursive call detected"
  | recursiveMarker _ _ => "recursive call marker"
  | pruning _ => "pruning uncalled entry methods"
  | finalised _ _ _ => "graph finalised"
  | analysisStarted _ _ => "starting call chain analysis"
  | analysisCancelled => "analysis cancelled"
  | analysisCompleted _ _ => "call chain analysis completed"
  | graphRendered _ => "graph rendered"
  | hierarchyImported _ _ => "hierarchy imported"
  | runInterrupted => "run interrupted"

/-- The fields of an event by their names. -/
def fields : Event → List (String × FieldValue)
  | unreadableLabel label => [("label", .text label.text)]
  | expanding method callers depth =>
      [("method", .text method.text), ("callers", .number callers), ("depth", .number depth)]
  | recursiveCall method caller =>
      [("method", .text method.text), ("caller", .text caller.text)]
  | recursiveMarker line label => [("line", .number line), ("label", .text label)]
  | pruning removed => [("removed", .number removed)]
  | finalised nodes edges pruned =>
      [("nodes", .number nodes), ("edges", .number edges), ("pruned", .flag pruned)]
  | analysisStarted entries scope =>
      [("entries", .number entries), ("scope", .text scope.name)]
  | analysisCancelled => []
  | analysisCompleted nodes edges => [("nodes", .number nodes), ("edges", .number edges)]
  | graphRendered path => [("path", .text path)]
  | hierarchyImported path nodes => [("path", .text path), ("nodes", .number nodes)]
  | runInterrupted => []

end Event

end CallerGraph
