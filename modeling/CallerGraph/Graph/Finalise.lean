import CallerGraph.Event
import CallerGraph.Graph.Basic
import CallerGraph.Graph.Draft

/-!
# Finishing a graph

Gathered nodes and calls become a graph in up to three steps.

1. `Graph.ofParts` keeps the first node for each identifier and, between
   the nodes that are kept, one call for each pair.
2. `Graph.prune`, where it is wanted, takes away the entries that nobody
   calls, together with their calls. That can leave further entries
   without a caller, so it goes on in rounds until no such entry is left.
3. `Graph.classify` gives every node its role.

A round with something to take away makes the graph smaller, which is why
pruning ends.
-/

namespace CallerGraph

namespace Graph

/-- The first node for each identifier, in order. -/
def firstById : List Node → List Node
  | [] => []
  | node :: nodes => node :: (firstById nodes).filter (·.id != node.id)

/-- The graph of gathered nodes and calls; a call whose caller or target
is missing is left out. -/
def ofParts (nodes : List Node) (calls : List Call) : Graph :=
  let kept := firstById nodes
  let known (id : NodeId) : Bool := kept.any (·.id == id)
  ⟨kept, (CallSet.ofList (calls.filter fun call => known call.source && known call.target)).calls⟩

/-- The entries that nobody calls. -/
def uncalledEntries (graph : Graph) : List NodeId :=
  (graph.nodes.filter fun node => node.isEntry && graph.inDegree node.id == 0).map Node.id

/-- The graph without some nodes and their calls. -/
def without (graph : Graph) (ids : List NodeId) : Graph :=
  ⟨graph.nodes.filter fun node => !ids.contains node.id,
    graph.calls.filter fun call => !(ids.contains call.source || ids.contains call.target)⟩

/-- A round of pruning. -/
def pruneRound (graph : Graph) : Graph :=
  graph.without graph.uncalledEntries

/-- A round with something to take away leaves fewer nodes. -/
theorem length_pruneRound_lt {graph : Graph} (h : graph.uncalledEntries ≠ []) :
    graph.pruneRound.nodes.length < graph.nodes.length := by
  obtain ⟨id, hid⟩ := List.exists_mem_of_ne_nil _ h
  obtain ⟨node, hnode, rfl⟩ := List.mem_map.1 hid
  refine List.length_filter_lt_length_iff_exists.2 ⟨node, (List.mem_filter.1 hnode).1, ?_⟩
  simp [hid]

/-- Takes uncalled entries away, round by round, until there are none. -/
def prune (graph : Graph) : Graph :=
  if _h : graph.uncalledEntries = [] then graph else prune graph.pruneRound
termination_by graph.nodes.length
decreasing_by exact length_pruneRound_lt _h

/-- The numbers of nodes that the rounds of `prune` take away. -/
def pruneCounts (graph : Graph) : List Nat :=
  if _h : graph.uncalledEntries = [] then []
  else graph.uncalledEntries.length :: pruneCounts graph.pruneRound
termination_by graph.nodes.length
decreasing_by exact length_pruneRound_lt _h

/-- Every node in the role that its calls give it. -/
def classify (graph : Graph) : Graph :=
  { graph with nodes := graph.nodes.map fun node =>
      { node with role := .classify (graph.inDegree node.id) (graph.outDegree node.id) } }

/-- The finished graph of gathered nodes and calls. -/
def finalise (nodes : List Node) (calls : List Call) (pruned : Bool) : Graph :=
  let gathered := ofParts nodes calls
  (if pruned then gathered.prune else gathered).classify

/-- What there is to tell about finishing a graph. -/
def finaliseEvents (nodes : List Node) (calls : List Call) (pruned : Bool) : List Event :=
  let rounds := if pruned then (ofParts nodes calls).pruneCounts else []
  let graph := finalise nodes calls pruned
  rounds.map .pruning ++ [.finalised graph.nodes.length graph.calls.length pruned]

/-- Finishes a graph once more. -/
def refinalise (graph : Graph) (pruned : Bool) : Graph :=
  finalise graph.nodes graph.calls pruned

end Graph

namespace Draft

/-- The finished graph of a draft. -/
def toGraph (draft : Draft) (pruned : Bool) : Graph :=
  .finalise draft.registry.nodes draft.calls.calls pruned

/-- What there is to tell about finishing a draft. -/
def toGraphEvents (draft : Draft) (pruned : Bool) : List Event :=
  Graph.finaliseEvents draft.registry.nodes draft.calls.calls pruned

end Draft

end CallerGraph
