import CallerGraph.Graph.Registry
import Std.Data.HashMap

/-!
# Registries with tables

A registry that is asked again and again keeps tables: one of the identifiers
of labels, one of the nodes under their identifiers, and beside them the
identifiers in the order in which they were given.  A label that is registered
is looked up in the first table and its identifier in the second, and where one
of them has nothing the entry is made.

Nothing in the tables says that they are in step.  `Registry` is what they look
like from outside.  What can be asked of either is a `RegistryRequest`, and
`RegistryHistory.of` is how a registry comes through a list of requests.
-/

namespace CallerGraph

/-- The identifiers of labels, the nodes under their identifiers, and the
identifiers in order. -/
structure TabledRegistry where
  ids : Std.HashMap Label NodeId
  nodes : Std.HashMap NodeId Node
  order : List NodeId
  palette : Palette

namespace TabledRegistry

/-- Empty tables, and colours from the start of a source. -/
def fresh (source : ColorSource) : TabledRegistry :=
  ⟨∅, ∅, [], .fresh source⟩

/-- The identifier of a label. -/
def idOf? (registry : TabledRegistry) (label : Label) : Option NodeId :=
  registry.ids[label]?

/-- The node with an identifier. -/
def node? (registry : TabledRegistry) (id : NodeId) : Option Node :=
  registry.nodes[id]?

/-- The number of labels. -/
def size (registry : TabledRegistry) : Nat :=
  registry.order.length

/-- The identifier of a label, given now if it has none yet. -/
def assign (registry : TabledRegistry) (label : Label) : NodeId × TabledRegistry :=
  match registry.ids[label]? with
  | some id => (id, registry)
  | none =>
      let id := .ofOrdinal (registry.order.length + 1)
      (id, { registry with
        ids := registry.ids.insert label id
        order := registry.order ++ [id] })

/-- The node under an identifier, made of a label if there is none, and the
palette afterwards. -/
def nodeFor (registry : TabledRegistry) (id : NodeId) (label : Label) : Node × Palette :=
  match registry.nodes[id]? with
  | some node => (node, registry.palette)
  | none =>
      let parts := LabelParts.ofLabel label.text
      let (color, palette) := registry.palette.colorFor parts.className
      (.ofParts id parts color false, palette)

/-- The node of a label, made if the label is new, and an entry from now
on if `entry` says so. -/
def register (registry : TabledRegistry) (label : Label) (entry : Bool) : Node × TabledRegistry :=
  let (id, assigned) := registry.assign label
  let (found, palette) := assigned.nodeFor id label
  let node := found.escalate entry
  (node, { assigned with nodes := assigned.nodes.insert id node, palette })

/-- What there is to tell when a label is registered: that a node is made of
it and it cannot be read. -/
def notices (registry : TabledRegistry) (label : Label) : List Event :=
  let (id, assigned) := registry.assign label
  if assigned.nodes[id]?.isNone ∧ (LabelParts.parse? label.text).isNone then
    [.unreadableLabel label]
  else []

/-- The colour of a class, given now if it has none yet. -/
def colorFor (registry : TabledRegistry) (className : String) : String × TabledRegistry :=
  let (color, palette) := registry.palette.colorFor className
  (color, { registry with palette })

/-- Takes the nodes with some identifiers out of a table, one after the other;
an identifier without a node is passed over. -/
def takeNodes (nodes : Std.HashMap NodeId Node) : List NodeId → List Node
  | [] => []
  | id :: ids =>
      match nodes[id]? with
      | some node => node :: takeNodes (nodes.erase id) ids
      | none => takeNodes nodes ids

/-- The nodes in the order of their numbers. -/
def intoNodes (registry : TabledRegistry) : List Node :=
  takeNodes registry.nodes registry.order

end TabledRegistry

/-- What a registry can do. -/
structure RegistryActions (ρ : Type) where
  register : ρ → Label → Bool → Node × ρ
  /-- What there is to tell when a label is registered. -/
  notices : ρ → Label → List Event
  idOf? : ρ → Label → Option NodeId
  node? : ρ → NodeId → Option Node
  colorFor : ρ → String → String × ρ

/-- What a registry does. -/
def Registry.actions : RegistryActions Registry :=
  ⟨Registry.register, Registry.notices, Registry.idOf?, Registry.node?, Registry.colorFor⟩

/-- What a registry with tables does. -/
def TabledRegistry.actions : RegistryActions TabledRegistry :=
  ⟨TabledRegistry.register, TabledRegistry.notices, TabledRegistry.idOf?, TabledRegistry.node?,
    TabledRegistry.colorFor⟩

/-- What can be asked of a registry. -/
inductive RegistryRequest where
  | register (label : Label) (entry : Bool)
  | idOf (label : Label)
  | node (id : NodeId)
  | colorFor (className : String)
deriving DecidableEq, Repr

/-- The label that is registered. -/
def RegistryRequest.label? : RegistryRequest → Option Label
  | register label _ => some label
  | _ => none

/-- What a registry answers. -/
inductive RegistryAnswer where
  | node (found : Option Node)
  | id (found : Option NodeId)
  | color (text : String)
deriving DecidableEq, Repr

/-- A registry, with what it has answered and told so far. -/
structure RegistryHistory (ρ : Type) where
  registry : ρ
  answers : List RegistryAnswer
  events : List Event

namespace RegistryHistory

variable {ρ : Type}

/-- A history goes on by an answer. -/
def answered (history : RegistryHistory ρ) (answer : RegistryAnswer) (events : List Event)
    (registry : ρ) : RegistryHistory ρ :=
  ⟨registry, history.answers ++ [answer], history.events ++ events⟩

/-- One more request. -/
def ask (actions : RegistryActions ρ) (history : RegistryHistory ρ) :
    RegistryRequest → RegistryHistory ρ
  | .register label entry =>
      let (node, registry) := actions.register history.registry label entry
      history.answered (.node (some node)) (actions.notices history.registry label) registry
  | .idOf label =>
      history.answered (.id (actions.idOf? history.registry label)) [] history.registry
  | .node id =>
      history.answered (.node (actions.node? history.registry id)) [] history.registry
  | .colorFor className =>
      let (color, registry) := actions.colorFor history.registry className
      history.answered (.color color) [] registry

/-- The history of some requests to a registry. -/
def of (actions : RegistryActions ρ) (registry : ρ) (requests : List RegistryRequest) :
    RegistryHistory ρ :=
  requests.foldl (ask actions) ⟨registry, [], []⟩

end RegistryHistory

end CallerGraph
