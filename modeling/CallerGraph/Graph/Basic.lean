import CallerGraph.Graph.CallSet

/-!
# Graphs of callers

A graph is a list of nodes and a list of calls between them, both in the
order in which they were found. The queries here read the two lists and
nothing else; that they agree with one another rests on what
`Graph.finalise` establishes.
-/

namespace CallerGraph

/-- Methods and the calls between them. -/
structure Graph where
  nodes : List Node
  calls : List Call
deriving DecidableEq, Repr, Inhabited

namespace Graph

/-- The graph without nodes. -/
def empty : Graph := ⟨[], []⟩

/-- The node with an identifier. -/
def node? (graph : Graph) (id : NodeId) : Option Node :=
  graph.nodes.find? (·.id == id)

/-- Is there a node with the identifier? -/
def containsNode (graph : Graph) (id : NodeId) : Bool :=
  graph.nodes.any (·.id == id)

/-- Is there a call between the two nodes? -/
def containsCall (graph : Graph) (source target : NodeId) : Bool :=
  graph.calls.any fun call => call.source == source && call.target == target

/-- The number of calls to a node. -/
def inDegree (graph : Graph) (id : NodeId) : Nat :=
  graph.calls.countP (·.target == id)

/-- The number of calls from a node. -/
def outDegree (graph : Graph) (id : NodeId) : Nat :=
  graph.calls.countP (·.source == id)

/-- The callers of a node, in the order of their calls. -/
def callersOf (graph : Graph) (id : NodeId) : List Node :=
  (graph.calls.filter (·.target == id)).filterMap fun call => graph.node? call.source

/-- The nodes that a node calls, in the order of the calls. -/
def calleesOf (graph : Graph) (id : NodeId) : List Node :=
  (graph.calls.filter (·.source == id)).filterMap fun call => graph.node? call.target

/-- The nodes in a role. -/
def inRole (graph : Graph) (role : Role) : List Node :=
  graph.nodes.filter (·.role == role)

/-- The nodes that call nothing. -/
def roots (graph : Graph) : List Node :=
  graph.inRole .root

/-- The nodes that call something and are not called. -/
def leaves (graph : Graph) : List Node :=
  graph.inRole .leaf

/-- The first node whose method, alone or with its class in front, has the
given name. -/
def findByMethod? (graph : Graph) (name : String) : Option Node :=
  graph.nodes.find? fun node => node.methodName == name || node.qualifiedName == name

end Graph

end CallerGraph
