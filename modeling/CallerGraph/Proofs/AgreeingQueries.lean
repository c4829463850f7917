import CallerGraph.Proofs.FinishedGraph
import Mathlib.Algebra.BigOperators.Group.Finset.Basic

/-!
# Queries that agree

A graph answers who calls a method, what a method calls, whether there is a call
between two methods, how many calls lead to and from a method, and which methods
are roots and leaves.  The answers come from the calls, from the nodes, from the
index and from the roles that were given when the graph was finished, and
`Graph.Coherent` says that they fit together.

The key fact is `WellFormed.ids_callersOf`: looking up the callers loses none,
since every call joins nodes of the graph.  All else about callers can be read off
the calls then, and what holds of callers holds of callees in the graph with its
calls reversed.
-/

namespace CallerGraph

/-- The call in the other direction. -/
def Call.reversed (call : Call) : Call :=
  ⟨call.target, call.source, call.recursive⟩

namespace Graph

variable {graph : Graph} {id caller method : NodeId}

/-! ### Callers -/

theorem containsCall_iff :
    graph.containsCall caller method = true ↔
      ∃ call ∈ graph.calls, call.source = caller ∧ call.target = method := by
  simp [containsCall]

/-- The identifiers of the callers are the sources of the calls: none is lost. -/
theorem WellFormed.ids_callersOf (h : graph.WellFormed) (id : NodeId) :
    (graph.callersOf id).map Node.id = (graph.calls.filter (·.target == id)).map Call.source := by
  rw [callersOf, List.map_filterMap, ← List.filterMap_eq_map]
  apply List.filterMap_congr
  intro call hcall
  obtain ⟨node, hnode, hid⟩ := List.mem_map.1 (h.joins call (List.mem_filter.1 hcall).1).1
  rw [h.node?_eq_some_iff.2 ⟨hnode, hid⟩, Option.map_some, hid]
  rfl

theorem WellFormed.mem_ids_callersOf_iff (h : graph.WellFormed) :
    caller ∈ (graph.callersOf method).map Node.id ↔ graph.containsCall caller method = true := by
  simp only [h.ids_callersOf, containsCall_iff, List.mem_map, List.mem_filter, beq_iff_eq]
  constructor
  · intro hmem
    obtain ⟨call, ⟨hcall, htarget⟩, hsource⟩ := hmem
    exact ⟨call, hcall, hsource, htarget⟩
  · intro hmem
    obtain ⟨call, hcall, hsource, htarget⟩ := hmem
    exact ⟨call, ⟨hcall, htarget⟩, hsource⟩

/-- Who is listed as a caller is a node of the graph, in the role that it has. -/
theorem WellFormed.mem_of_mem_callersOf (h : graph.WellFormed) {node : Node}
    (hnode : node ∈ graph.callersOf id) : node ∈ graph.nodes := by
  obtain ⟨call, -, hfound⟩ := List.mem_filterMap.1 hnode
  exact (h.node?_eq_some_iff.1 hfound).1

/-- There is one call at most from each caller, so no caller is listed twice. -/
theorem WellFormed.nodup_ids_callersOf (h : graph.WellFormed) (id : NodeId) :
    ((graph.callersOf id).map Node.id).Nodup := by
  have hends : ((graph.calls.filter (·.target == id)).map Call.ends).Nodup :=
    h.ends_nodup.sublist (List.filter_sublist.map _)
  have hpairs : (graph.calls.filter (·.target == id)).map Call.ends =
      ((graph.calls.filter (·.target == id)).map Call.source).map fun source => (source, id) := by
    rw [List.map_map]
    apply List.map_congr_left
    intro call hcall
    have htarget : call.target = id := beq_iff_eq.1 (List.mem_filter.1 hcall).2
    rw [← htarget]
    rfl
  rw [hpairs] at hends
  rw [h.ids_callersOf]
  exact hends.of_map _

theorem WellFormed.length_callersOf (h : graph.WellFormed) (id : NodeId) :
    (graph.callersOf id).length = graph.inDegree id := by
  rw [← List.length_map Node.id, h.ids_callersOf, List.length_map, inDegree,
    List.countP_eq_length_filter]

theorem WellFormed.callersOf_eq_nil_iff (h : graph.WellFormed) :
    graph.callersOf id = [] ↔ graph.inDegree id = 0 := by
  rw [← List.length_eq_zero_iff, h.length_callersOf]

/-- No call leads to a node that is not there. -/
theorem WellFormed.inDegree_of_unknown (h : graph.WellFormed)
    (hunknown : graph.containsNode id = false) : graph.inDegree id = 0 := by
  rw [inDegree_eq_zero_iff]
  intro call hcall htarget
  have hknown := containsNode_iff.2 (h.joins call hcall).2
  rw [htarget, hunknown] at hknown
  cases hknown

/-- Every call leads to one of the nodes. -/
theorem WellFormed.sum_inDegree (h : graph.WellFormed) :
    (graph.nodes.map fun node => graph.inDegree node.id).sum = graph.calls.length := by
  have hcount : ∀ id, graph.inDegree id = (graph.calls.map Call.target : Multiset NodeId).count id := by
    intro id
    rw [Multiset.coe_count, List.count_eq_countP, List.countP_map]
    rfl
  have htargets : ∀ id ∈ (graph.calls.map Call.target : Multiset NodeId),
      id ∈ (graph.nodes.map Node.id).toFinset := by
    intro id hid
    obtain ⟨call, hcall, rfl⟩ := List.mem_map.1 (Multiset.mem_coe.1 hid)
    exact List.mem_toFinset.2 (h.joins call hcall).2
  calc (graph.nodes.map fun node => graph.inDegree node.id).sum
      = ((graph.nodes.map Node.id).map graph.inDegree).sum := by rw [List.map_map]; rfl
    _ = ∑ id ∈ (graph.nodes.map Node.id).toFinset, graph.inDegree id :=
        (List.sum_toFinset _ h.ids_nodup).symm
    _ = (graph.calls.map Call.target : Multiset NodeId).card := by
        simp only [hcount]
        exact Multiset.sum_count_eq_card htargets
    _ = graph.calls.length := by rw [Multiset.coe_card, List.length_map]

/-! ### Callees -/

/-- The graph with its calls in the other direction. -/
def reversed (graph : Graph) : Graph :=
  { graph with calls := graph.calls.map Call.reversed }

theorem WellFormed.reversed (h : graph.WellFormed) : graph.reversed.WellFormed where
  ids_nodup := h.ids_nodup
  ends_nodup := by
    have hswap : graph.reversed.calls.map Call.ends = (graph.calls.map Call.ends).map Prod.swap := by
      simp only [Graph.reversed, List.map_map]
      rfl
    rw [hswap]
    exact h.ends_nodup.map Prod.swap_injective
  joins call hcall := by
    obtain ⟨before, hbefore, rfl⟩ := List.mem_map.1 hcall
    exact (h.joins before hbefore).symm

theorem inDegree_reversed (graph : Graph) (id : NodeId) :
    graph.reversed.inDegree id = graph.outDegree id := by
  rw [inDegree, reversed, List.countP_map]
  rfl

theorem callersOf_reversed (graph : Graph) (id : NodeId) :
    graph.reversed.callersOf id = graph.calleesOf id := by
  rw [callersOf, reversed, List.filter_map, List.filterMap_map]
  rfl

theorem containsCall_reversed (graph : Graph) (caller method : NodeId) :
    graph.reversed.containsCall method caller = graph.containsCall caller method := by
  rw [containsCall, reversed, List.any_map, containsCall]
  congr 1
  funext call
  exact Bool.and_comm _ _

theorem WellFormed.calleesOf_eq_nil_iff (h : graph.WellFormed) :
    graph.calleesOf id = [] ↔ graph.outDegree id = 0 := by
  rw [← callersOf_reversed, ← inDegree_reversed]
  exact h.reversed.callersOf_eq_nil_iff

/-! ### Roles -/

/-- Is each node in the role that its calls give it? -/
def Placed (graph : Graph) : Prop :=
  ∀ node ∈ graph.nodes,
    node.role = .classify (graph.inDegree node.id) (graph.outDegree node.id)

theorem WellFormed.roots_eq (h : graph.WellFormed) (hplaced : graph.Placed) :
    graph.roots = graph.nodes.filter fun node => (graph.calleesOf node.id).isEmpty := by
  apply List.filter_congr
  intro node hnode
  rw [Bool.eq_iff_iff, beq_iff_eq, hplaced node hnode, eq_comm, Role.root_eq_classify_iff,
    List.isEmpty_iff, h.calleesOf_eq_nil_iff]

theorem WellFormed.leaves_eq (h : graph.WellFormed) (hplaced : graph.Placed) :
    graph.leaves = graph.nodes.filter fun node =>
      !(graph.calleesOf node.id).isEmpty && (graph.callersOf node.id).isEmpty := by
  apply List.filter_congr
  intro node hnode
  rw [Bool.eq_iff_iff, beq_iff_eq, hplaced node hnode, eq_comm, Role.leaf_eq_classify_iff,
    Bool.and_eq_true, Bool.not_eq_true', List.isEmpty_eq_false_iff, List.isEmpty_iff]
  simp only [ne_eq, h.calleesOf_eq_nil_iff, h.callersOf_eq_nil_iff]

theorem WellFormed.inRole_intermediate_eq (h : graph.WellFormed) (hplaced : graph.Placed) :
    graph.inRole .intermediate = graph.nodes.filter fun node =>
      !(graph.calleesOf node.id).isEmpty && !(graph.callersOf node.id).isEmpty := by
  apply List.filter_congr
  intro node hnode
  rw [Bool.eq_iff_iff, beq_iff_eq, hplaced node hnode, eq_comm, Role.intermediate_eq_classify_iff,
    Bool.and_eq_true, Bool.not_eq_true', Bool.not_eq_true', List.isEmpty_eq_false_iff,
    List.isEmpty_eq_false_iff]
  simp only [ne_eq, h.calleesOf_eq_nil_iff, h.callersOf_eq_nil_iff]

/-- Every node is in one of the three roles. -/
theorem perm_roles (graph : Graph) :
    graph.nodes.Perm (graph.roots ++ graph.leaves ++ graph.inRole .intermediate) := by
  obtain ⟨nodes, calls⟩ := graph
  simp only [roots, leaves, inRole]
  induction nodes with
  | nil => exact .nil
  | cons node nodes ih =>
      cases hrole : node.role with
      | root => simpa [hrole] using ih
      | leaf =>
          rw [List.append_assoc] at ih
          simpa [hrole] using (ih.cons node).trans List.perm_middle.symm
      | intermediate => simpa [hrole] using (ih.cons node).trans List.perm_middle.symm

/-! ### All together -/

/-- The answers of the graph fit together. -/
structure Coherent (graph : Graph) : Prop where
  /-- The callers of a method are those that a call leads from. -/
  mem_callers : ∀ caller method,
    caller ∈ (graph.callersOf method).map Node.id ↔ graph.containsCall caller method = true
  mem_callees : ∀ caller method,
    method ∈ (graph.calleesOf caller).map Node.id ↔ graph.containsCall caller method = true
  /-- They are nodes of the graph, and none is listed twice. -/
  callers_known : ∀ id, ∀ node ∈ graph.callersOf id, node ∈ graph.nodes
  callees_known : ∀ id, ∀ node ∈ graph.calleesOf id, node ∈ graph.nodes
  callers_nodup : ∀ id, ((graph.callersOf id).map Node.id).Nodup
  callees_nodup : ∀ id, ((graph.calleesOf id).map Node.id).Nodup
  /-- There are as many as there are calls, none where there is no node. -/
  length_callers : ∀ id, (graph.callersOf id).length = graph.inDegree id
  length_callees : ∀ id, (graph.calleesOf id).length = graph.outDegree id
  degrees_unknown : ∀ id, graph.containsNode id = false →
    graph.inDegree id = 0 ∧ graph.outDegree id = 0
  /-- Every call is counted once at either end. -/
  sum_inDegree : (graph.nodes.map fun node => graph.inDegree node.id).sum = graph.calls.length
  sum_outDegree : (graph.nodes.map fun node => graph.outDegree node.id).sum = graph.calls.length
  /-- Roots have no callees; leaves have some and no callers. -/
  roots : graph.roots = graph.nodes.filter fun node => (graph.calleesOf node.id).isEmpty
  leaves : graph.leaves = graph.nodes.filter fun node =>
    !(graph.calleesOf node.id).isEmpty && (graph.callersOf node.id).isEmpty
  others : graph.inRole .intermediate = graph.nodes.filter fun node =>
    !(graph.calleesOf node.id).isEmpty && !(graph.callersOf node.id).isEmpty
  /-- Roots, leaves and the others are all nodes, and no node is two of these. -/
  parted : graph.nodes.Perm (graph.roots ++ graph.leaves ++ graph.inRole .intermediate)
  parted_nodup : (graph.roots ++ graph.leaves ++ graph.inRole .intermediate).Nodup

theorem WellFormed.coherent (h : graph.WellFormed) (hplaced : graph.Placed) : graph.Coherent where
  mem_callers _ _ := h.mem_ids_callersOf_iff
  mem_callees caller method := by
    rw [← callersOf_reversed, h.reversed.mem_ids_callersOf_iff, containsCall_reversed]
  callers_known _ _ := h.mem_of_mem_callersOf
  callees_known id node hnode := by
    rw [← callersOf_reversed] at hnode
    exact h.reversed.mem_of_mem_callersOf hnode
  callers_nodup := h.nodup_ids_callersOf
  callees_nodup id := by
    rw [← callersOf_reversed]
    exact h.reversed.nodup_ids_callersOf id
  length_callers := h.length_callersOf
  length_callees id := by
    rw [← callersOf_reversed, ← inDegree_reversed]
    exact h.reversed.length_callersOf id
  degrees_unknown id hunknown := by
    rw [← inDegree_reversed]
    exact ⟨h.inDegree_of_unknown hunknown, h.reversed.inDegree_of_unknown hunknown⟩
  sum_inDegree := h.sum_inDegree
  sum_outDegree := by
    have hsum := h.reversed.sum_inDegree
    simp only [inDegree_reversed] at hsum
    exact hsum.trans (List.length_map _)
  roots := h.roots_eq hplaced
  leaves := h.leaves_eq hplaced
  others := h.inRole_intermediate_eq hplaced
  parted := graph.perm_roles
  parted_nodup := graph.perm_roles.nodup_iff.1 (h.ids_nodup.of_map _)

end Graph

namespace IndexedGraph

variable {indexed : IndexedGraph}

/-- With a right index the node of an identifier is found at its position. -/
theorem Sound.nodeAt?_eq_node? (h : indexed.Sound) (hwell : indexed.toGraph.WellFormed)
    (id : NodeId) : indexed.nodeAt? id = indexed.node? id := by
  apply Option.ext
  intro node
  rw [h.nodeAt?_eq_some_iff, hwell.node?_eq_some_iff]

theorem Sound.callersAt_eq (h : indexed.Sound) (hwell : indexed.toGraph.WellFormed) (id : NodeId) :
    indexed.callersAt id = indexed.callersOf id := by
  simp only [callersAt, Graph.callersOf, h.nodeAt?_eq_node? hwell]

theorem Sound.calleesAt_eq (h : indexed.Sound) (hwell : indexed.toGraph.WellFormed) (id : NodeId) :
    indexed.calleesAt id = indexed.calleesOf id := by
  simp only [calleesAt, Graph.calleesOf, h.nodeAt?_eq_node? hwell]

end IndexedGraph

namespace Graph

/-- **What a finished graph answers fits together,** whatever nodes and calls it
was put together from and however often it was finished since.  The nodes that
are found by the index are those that are found without. -/
theorem finished_queries_agree (nodes : List Node) (calls : List Call) (pruned : Bool)
    (later : List Bool) :
    let indexed := later.foldl IndexedGraph.refinalise (IndexedGraph.finalise nodes calls pruned)
    let graph := later.foldl refinalise (finalise nodes calls pruned)
    graph.Coherent ∧
      ∀ id, indexed.callersAt id = graph.callersOf id ∧
        indexed.calleesAt id = graph.calleesOf id := by
  intro indexed graph
  obtain ⟨hwell, hfirst⟩ := keepsFirst_foldl_refinalise (wellFormed_finalise nodes calls pruned)
    (keepsFirst_finalise nodes calls pruned) later
  have hgraph : indexed.toGraph = graph := by
    rw [IndexedGraph.toGraph_foldl_refinalise, IndexedGraph.toGraph_finalise]
  have hsound : indexed.Sound :=
    (IndexedGraph.sound_finalise nodes calls pruned).foldl_refinalise later
  have hindexed : indexed.toGraph.WellFormed := hgraph ▸ hwell
  refine ⟨hwell.coherent fun node => hfirst.role_eq, fun id => ?_⟩
  rw [← hgraph]
  exact ⟨hsound.callersAt_eq hindexed id, hsound.calleesAt_eq hindexed id⟩

end Graph

end CallerGraph
