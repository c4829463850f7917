import CallerGraph.Graph.CallSet
import CallerGraph.Graph.Registry

/-!
# Drafts

A draft is a graph in the making: the methods met so far and the calls
between them. Exploring a source of callers and reading an indented
hierarchy both do nothing else with a graph than register methods and
link them.
-/

namespace CallerGraph

/-- The methods and calls gathered so far. -/
structure Draft where
  registry : Registry
  calls : CallSet

namespace Draft

/-- A draft without methods. -/
def fresh (source : ColorSource) : Draft :=
  ⟨.fresh source, .empty⟩

/-- Registers a method and answers its identifier. -/
def register (draft : Draft) (label : Label) (entry : Bool) : NodeId × Draft :=
  let (node, registry) := draft.registry.register label entry
  (node.id, { draft with registry })

/-- What there is to tell when a method is registered. -/
def notices (draft : Draft) (label : Label) : List Event :=
  draft.registry.notices label

/-- Links two registered methods by a call. -/
def link (draft : Draft) (call : Call) : Draft :=
  { draft with calls := draft.calls.add call }

end Draft

end CallerGraph
