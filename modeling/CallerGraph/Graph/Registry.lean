import CallerGraph.Color.Palette
import CallerGraph.Event
import CallerGraph.Graph.Node

/-!
# The registry of methods

A registry gives every label a node when it first comes, numbered from 1,
with the colour of its class. When a label comes again it keeps its node;
the only thing that can still change is that the node becomes an entry.
-/

namespace CallerGraph

/-- The labels that came so far with their nodes, in order, and the
palette for the classes to come. -/
structure Registry where
  entries : List (Label × Node)
  palette : Palette

namespace Registry

/-- No labels yet, and colours from the start of a source. -/
def fresh (source : ColorSource) : Registry :=
  ⟨[], .fresh source⟩

/-- The node of a label. -/
def find? (registry : Registry) (label : Label) : Option Node :=
  (registry.entries.find? (·.1 == label)).map (·.2)

/-- The identifier of a label. -/
def idOf? (registry : Registry) (label : Label) : Option NodeId :=
  (registry.find? label).map Node.id

/-- The nodes in the order of their numbers. -/
def nodes (registry : Registry) : List Node :=
  registry.entries.map (·.2)

/-- The node with an identifier. -/
def node? (registry : Registry) (id : NodeId) : Option Node :=
  registry.nodes.find? (·.id == id)

/-- The number of labels. -/
def size (registry : Registry) : Nat :=
  registry.entries.length

/-- The node that a label would get now. -/
def newNode (registry : Registry) (label : Label) (entry : Bool) : Node × Palette :=
  let parts := LabelParts.ofLabel label.text
  let (color, palette) := registry.palette.colorFor parts.className
  (.ofParts (.ofOrdinal (registry.size + 1)) parts color entry, palette)

/-- The node of a label, made if the label is new, and an entry from now
on if `entry` says so. -/
def register (registry : Registry) (label : Label) (entry : Bool) : Node × Registry :=
  match registry.find? label with
  | some node =>
      (node.escalate entry,
        { registry with entries := registry.entries.map fun known =>
            if known.1 = label then (known.1, known.2.escalate entry) else known })
  | none =>
      let (node, palette) := registry.newNode label entry
      (node, ⟨registry.entries ++ [(label, node)], palette⟩)

/-- What there is to tell when a label is registered: that it is new and
cannot be read. -/
def notices (registry : Registry) (label : Label) : List Event :=
  if (registry.find? label).isNone ∧ (LabelParts.parse? label.text).isNone then
    [.unreadableLabel label]
  else []

/-- The colour of a class, given now if it has none yet. -/
def colorFor (registry : Registry) (className : String) : String × Registry :=
  let (color, palette) := registry.palette.colorFor className
  (color, { registry with palette })

end Registry

end CallerGraph
