import CallerGraph.Graph.Finalise
import CallerGraph.Proofs.Recording

/-!
# What finishing keeps

A graph whose nodes go by labels is `Graph.Labelled`: no identifier and no
pair of methods comes twice, every node has exactly one label, and calls join
nodes of the graph.  Pruning and classifying keep a graph so.

What an exploration gathers is labelled before it is finished, so that
putting it together leaves everything in its place.
-/

namespace CallerGraph

namespace Graph

theorem firstById_eq_self {nodes : List Node} (hnodup : (nodes.map Node.id).Nodup) :
    firstById nodes = nodes := by
  induction nodes with
  | nil => rfl
  | cons node nodes ih =>
      obtain ⟨hnew, hrest⟩ := List.nodup_cons.1 hnodup
      rw [firstById, ih hrest, List.filter_eq_self.2]
      intro other hother
      have hne : other.id ≠ node.id := fun heq => hnew (heq ▸ List.mem_map_of_mem hother)
      simpa using hne

/-- The nodes of the graph go by labels. -/
structure Labelled (names : Label → Option NodeId) (graph : Graph) : Prop where
  ids_nodup : (graph.nodes.map Node.id).Nodup
  ends_nodup : (graph.calls.map Call.ends).Nodup
  named : ∀ node ∈ graph.nodes, ∃ label, names label = some node.id
  named_once : ∀ label other id, names label = some id → names other = some id → label = other
  joins : ∀ call ∈ graph.calls,
    call.source ∈ graph.nodes.map Node.id ∧ call.target ∈ graph.nodes.map Node.id

variable {names : Label → Option NodeId} {graph : Graph}

theorem Labelled.exists_name (h : graph.Labelled names) {id : NodeId}
    (hid : id ∈ graph.nodes.map Node.id) : ∃ label, names label = some id := by
  obtain ⟨node, hnode, rfl⟩ := List.mem_map.1 hid
  exact h.named node hnode

/-- Nodes and calls of a labelled graph are put together as they are. -/
theorem Labelled.ofParts_eq (h : graph.Labelled names) :
    ofParts graph.nodes graph.calls = graph := by
  have hnodes := firstById_eq_self h.ids_nodup
  have hcalls : graph.calls.filter (fun call =>
      graph.nodes.any (·.id == call.source) && graph.nodes.any (·.id == call.target)) =
      graph.calls := by
    apply List.filter_eq_self.2
    intro call hcall
    obtain ⟨hsource, htarget⟩ := h.joins call hcall
    simpa using And.intro (List.mem_map.1 hsource) (List.mem_map.1 htarget)
  simp only [ofParts, hnodes, hcalls, CallSet.calls_ofList_of_nodup h.ends_nodup]

theorem mem_nodes_without {ids : List NodeId} {node : Node} :
    node ∈ (graph.without ids).nodes ↔ node ∈ graph.nodes ∧ node.id ∉ ids := by
  simp [without]

theorem mem_calls_without {ids : List NodeId} {call : Call} :
    call ∈ (graph.without ids).calls ↔
      call ∈ graph.calls ∧ call.source ∉ ids ∧ call.target ∉ ids := by
  simp [without]

/-- Nodes can be taken away together with their calls. -/
theorem Labelled.without (h : graph.Labelled names) (ids : List NodeId) :
    (graph.without ids).Labelled names where
  ids_nodup := h.ids_nodup.sublist (List.filter_sublist.map _)
  ends_nodup := h.ends_nodup.sublist (List.filter_sublist.map _)
  named node hnode := h.named node (mem_nodes_without.1 hnode).1
  named_once := h.named_once
  joins call hcall := by
    have hstays : ∀ id ∈ graph.nodes.map Node.id, id ∉ ids →
        id ∈ (graph.without ids).nodes.map Node.id := by
      intro id hid hkept
      obtain ⟨node, hnode, rfl⟩ := List.mem_map.1 hid
      exact List.mem_map_of_mem (mem_nodes_without.2 ⟨hnode, hkept⟩)
    obtain ⟨hbefore, hsource, htarget⟩ := mem_calls_without.1 hcall
    obtain ⟨hcaller, hmethod⟩ := h.joins call hbefore
    exact ⟨hstays _ hcaller hsource, hstays _ hmethod htarget⟩

theorem Labelled.pruneRound (h : graph.Labelled names) : graph.pruneRound.Labelled names :=
  h.without graph.uncalledEntries

theorem prune_of_eq_nil (hnone : graph.uncalledEntries = []) : graph.prune = graph := by
  rw [prune, dif_pos hnone]

theorem prune_of_ne_nil (hsome : graph.uncalledEntries ≠ []) :
    graph.prune = graph.pruneRound.prune := by
  rw [prune, dif_neg hsome]

/-- What every round of pruning keeps, pruning keeps. -/
theorem prune_induction {motive : Graph → Prop}
    (round : ∀ graph : Graph, motive graph → motive graph.pruneRound) (hstart : motive graph) :
    motive graph.prune := by
  induction graph using prune.induct with
  | case1 graph hnone => rwa [prune_of_eq_nil hnone]
  | case2 graph hsome ih =>
      rw [prune_of_ne_nil hsome]
      exact ih (round graph hstart)

theorem Labelled.prune (h : graph.Labelled names) : graph.prune.Labelled names :=
  prune_induction (fun _ h => h.pruneRound) h

@[simp] theorem ids_classify : graph.classify.nodes.map Node.id = graph.nodes.map Node.id := by
  simp [classify]

theorem Labelled.classify (h : graph.Labelled names) : graph.classify.Labelled names where
  ids_nodup := by
    rw [ids_classify]
    exact h.ids_nodup
  ends_nodup := h.ends_nodup
  named node hnode := by
    apply h.exists_name
    rw [← ids_classify]
    exact List.mem_map_of_mem hnode
  named_once := h.named_once
  joins call hcall := by
    rw [ids_classify]
    exact h.joins call hcall

end Graph

namespace Draft

variable {draft : Draft}

/-- The nodes and calls of a draft as they are. -/
def parts (draft : Draft) : Graph :=
  ⟨draft.registry.nodes, draft.calls.calls⟩

/-- An orderly draft goes by the labels of its registry. -/
theorem labelled_parts (horderly : draft.registry.Orderly) (hlinked : draft.Linked)
    (hnodup : (draft.calls.calls.map Call.ends).Nodup) :
    draft.parts.Labelled draft.registry.idOf? where
  ids_nodup := horderly.ids_nodup
  ends_nodup := hnodup
  named node hnode := by
    obtain ⟨label, hfound⟩ := horderly.exists_find? hnode
    refine ⟨label, ?_⟩
    rw [Registry.idOf?, hfound, Option.map_some]
  named_once _ _ _ hlabel hother := horderly.idOf?_injective hlabel hother
  joins call hcall := by
    have hfound : ∀ {label id}, draft.registry.idOf? label = some id →
        id ∈ draft.registry.nodes.map Node.id := by
      intro label id hid
      obtain ⟨node, hnode, rfl⟩ := Option.map_eq_some_iff.1 hid
      exact List.mem_map_of_mem (Registry.mem_nodes_of_find? hnode)
    obtain ⟨caller, method, hcaller, hmethod⟩ := hlinked call hcall
    exact ⟨hfound hcaller, hfound hmethod⟩

/-- The graph of a labelled draft is pruned, if it is to be, and classified. -/
theorem toGraph_of_labelled {names : Label → Option NodeId} (h : draft.parts.Labelled names)
    (pruned : Bool) :
    draft.toGraph pruned = (if pruned then draft.parts.prune else draft.parts).classify := by
  have hparts : Graph.ofParts draft.registry.nodes draft.calls.calls = draft.parts := h.ofParts_eq
  rw [toGraph, Graph.finalise, hparts]

/-- **A finished graph goes by the labels of its draft.** -/
theorem labelled_toGraph {names : Label → Option NodeId} (h : draft.parts.Labelled names)
    (pruned : Bool) : (draft.toGraph pruned).Labelled names := by
  rw [toGraph_of_labelled h]
  cases pruned with
  | true => exact h.prune.classify
  | false => exact h.classify

end Draft

end CallerGraph
