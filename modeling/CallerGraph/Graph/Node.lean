import CallerGraph.Label.Parts

/-!
# Nodes and calls

A node is a method of a graph. Its identifier is a short text, as a rule
`node` and a number. A call leads from the caller to the method that it
calls; it is marked as recursive when it was found as the closing call of
a cycle.

The role of a node is where it stands between the entry methods and the
outermost callers. A root calls nothing in the graph, a leaf calls
something and is not called, and all others are intermediate.
-/

namespace CallerGraph

/-- The identifier of a node. -/
structure NodeId where
  text : String
deriving DecidableEq, Hashable, Repr, Inhabited

/-- The identifier with a number. -/
def NodeId.ofOrdinal (ordinal : Nat) : NodeId :=
  ⟨"node" ++ ordinal.repr⟩

/-- Where a node stands between entries and outermost callers. -/
inductive Role where
  | root
  | leaf
  | intermediate
deriving DecidableEq, Repr, Inhabited

namespace Role

/-- The role of a node by the number of its callers and of the methods it
calls. -/
def classify (callers callees : Nat) : Role :=
  if callees = 0 then .root else if callers = 0 then .leaf else .intermediate

/-- The name of a role in a written graph. -/
def name : Role → String
  | root => "ROOT"
  | leaf => "LEAF"
  | intermediate => "INTERMEDIATE"

end Role

/-- A method of a graph. -/
structure Node where
  id : NodeId
  className : String
  methodName : String
  params : String
  packageName : String
  /-- The colour of the class. -/
  classColor : String
  isEntry : Bool
  role : Role
  isOverride : Bool
deriving DecidableEq, Repr, Inhabited

namespace Node

/-- The node of a method by the parts of its label. Until a graph is
finished every node is a root. -/
def ofParts (id : NodeId) (parts : LabelParts) (classColor : String) (isEntry : Bool) : Node where
  id := id
  className := parts.className
  methodName := parts.methodName
  params := parts.params
  packageName := parts.packageName
  classColor := classColor
  isEntry := isEntry
  role := .root
  isOverride := parts.isOverride

/-- Class and method with a dot between them. -/
def qualifiedName (node : Node) : String :=
  node.className ++ "." ++ node.methodName

/-- The node, an entry from now on if `entry` says so. -/
def escalate (entry : Bool) (node : Node) : Node :=
  { node with isEntry := node.isEntry || entry }

end Node

/-- A call from one method to another. -/
structure Call where
  /-- The caller. -/
  source : NodeId
  /-- The method that is called. -/
  target : NodeId
  recursive : Bool
deriving DecidableEq, Repr, Inhabited

namespace Call

/-- The caller and the method that is called. -/
def ends (call : Call) : NodeId × NodeId :=
  (call.source, call.target)

/-- A text that tells calls apart. -/
def key (call : Call) : String :=
  call.source.text ++ "->" ++ call.target.text

end Call

end CallerGraph
