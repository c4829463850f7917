import CallerGraph.Graph.Finalise
import Mathlib.Tactic.Linarith

/-!
# Graphs with an index

Whoever asks a graph for its nodes again and again keeps a table of their
positions beside it.  Here the steps that finish a graph are taken with such
a table at hand: nodes are put in one by one, a node whose identifier the
table has is left out, and after a round of pruning the table is made anew.
Roles come from two tables of their own, of how often each node is called and
calls.

Nothing is told by the tables that the graph does not tell.  A step with them
is the same step of `Graph`, and the table of positions is right after each.
-/

namespace CallerGraph

/-- A graph and the positions of its nodes. -/
structure IndexedGraph extends Graph where
  index : Std.HashMap NodeId Nat

namespace IndexedGraph

/-- The graph without nodes. -/
def empty : IndexedGraph :=
  { Graph.empty with index := ∅ }

/-- Puts a node behind the others, unless its identifier is known. -/
def addNode (indexed : IndexedGraph) (node : Node) : IndexedGraph :=
  if indexed.index.contains node.id then indexed
  else
    { indexed with
      nodes := indexed.nodes ++ [node]
      index := indexed.index.insert node.id indexed.nodes.length }

/-- Are the caller and the method of a call known? -/
def knowsEnds (indexed : IndexedGraph) (call : Call) : Bool :=
  indexed.index.contains call.source && indexed.index.contains call.target

/-- The graph of gathered nodes and calls. -/
def ofParts (nodes : List Node) (calls : List Call) : IndexedGraph :=
  let gathered := nodes.foldl addNode empty
  { gathered with calls := (CallSet.ofList (calls.filter gathered.knowsEnds)).calls }

/-- The identifiers of nodes with the positions of the nodes. -/
def positions (nodes : List Node) : List (NodeId × Nat) :=
  nodes.zipIdx.map fun entry => (entry.1.id, entry.2)

/-- The graph with its index made anew. -/
def ofGraph (graph : Graph) : IndexedGraph :=
  { graph with index := .ofList (positions graph.nodes) }

/-- Takes uncalled entries away, round by round. -/
def prune (indexed : IndexedGraph) : IndexedGraph :=
  if _h : indexed.uncalledEntries = [] then indexed else prune (ofGraph indexed.pruneRound)
termination_by indexed.nodes.length
decreasing_by exact Graph.length_pruneRound_lt _h

/-- How often each identifier occurs. -/
def tally (ids : List NodeId) : Std.HashMap NodeId Nat :=
  ids.foldl (fun counts id => counts.insert id (counts.getD id 0 + 1)) ∅

/-- Every node in the role that its calls give it, by counts made
beforehand. -/
def classify (indexed : IndexedGraph) : IndexedGraph :=
  let incoming := tally (indexed.calls.map Call.target)
  let outgoing := tally (indexed.calls.map Call.source)
  { indexed with nodes := indexed.nodes.map fun node =>
      { node with role := .classify (incoming.getD node.id 0) (outgoing.getD node.id 0) } }

/-- The finished graph of gathered nodes and calls. -/
def finalise (nodes : List Node) (calls : List Call) (pruned : Bool) : IndexedGraph :=
  let gathered := ofParts nodes calls
  (if pruned then gathered.prune else gathered).classify

/-- Finishes a graph once more. -/
def refinalise (indexed : IndexedGraph) (pruned : Bool) : IndexedGraph :=
  finalise indexed.nodes indexed.calls pruned

/-- The node at the position of an identifier. -/
def nodeAt? (indexed : IndexedGraph) (id : NodeId) : Option Node :=
  indexed.index[id]?.bind fun position => indexed.nodes[position]?

/-- Has the index the identifier? -/
def knows (indexed : IndexedGraph) (id : NodeId) : Bool :=
  indexed.index.contains id

/-- The callers of a node, in the order of their calls, each taken from its
position. -/
def callersAt (indexed : IndexedGraph) (id : NodeId) : List Node :=
  (indexed.calls.filter (·.target == id)).filterMap fun call => indexed.nodeAt? call.source

/-- The nodes that a node calls, in the order of the calls, each taken from its
position. -/
def calleesAt (indexed : IndexedGraph) (id : NodeId) : List Node :=
  (indexed.calls.filter (·.source == id)).filterMap fun call => indexed.nodeAt? call.target

end IndexedGraph

end CallerGraph
