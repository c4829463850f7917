import CallerGraph.Files.Fault
import CallerGraph.Graph.Node
import CallerGraph.Label.Basic

/-!
# Errors of an analysis

An error is a cause. `message` is its wording, and `sources` lists the
wordings of the causes behind it, from the nearest to the last.
-/

namespace CallerGraph

/-- Why a graph could not be handed over. -/
inductive RenderError where
  /-- The graph could not be put into words. -/
  | serialise (detail : String)
  /-- Something at a path could not be made or written. -/
  | io (path : String) (fault : Fault)
deriving DecidableEq, Repr

namespace RenderError

/-- The wording of the error. -/
def message : RenderError → String
  | serialise detail => "failed to serialise graph: " ++ detail
  | io path fault => "failed to write " ++ path ++ ": " ++ fault.message

/-- The wordings of the causes behind the error. -/
def sources : RenderError → List String
  | serialise detail => [detail]
  | io _ fault => [fault.message]

/-- The error for a text that ends before its first value. -/
def emptyDocument : RenderError :=
  serialise "EOF while parsing a value at line 1 column 0"

end RenderError

/-- Why an analysis gave no graph, or a query no node. -/
inductive GraphError where
  /-- The callers of a method could not be found. The cause is there when
  it is an error of its own. -/
  | lookup (method : Label) (detail : String) (cause : Option String)
  | cancelled
  | render (cause : RenderError)
  | nodeNotFound (id : NodeId)
deriving DecidableEq, Repr

namespace GraphError

/-- The error for a lookup that failed with an error of its own. -/
def lookupFailed (method : Label) (cause : String) : GraphError :=
  lookup method cause (some cause)

/-- Was the analysis given up because it was asked to? -/
def isCancellation : GraphError → Bool
  | cancelled => true
  | _ => false

/-- The wording of the error. -/
def message : GraphError → String
  | lookup method detail _ => "failed to resolve callers of '" ++ method.text ++ "': " ++ detail
  | cancelled => "analysis cancelled"
  | render cause => "failed to render graph: " ++ cause.message
  | nodeNotFound id => "node not found: " ++ id.text

/-- The wordings of the causes behind the error. -/
def sources : GraphError → List String
  | lookup _ _ cause => cause.toList
  | cancelled => []
  | render cause => cause.message :: cause.sources
  | nodeNotFound _ => []

end GraphError

end CallerGraph
