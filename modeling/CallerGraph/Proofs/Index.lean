import CallerGraph.Graph.Indexed
import CallerGraph.Proofs.WellFormed

/-!
# The index is right

The index of a graph is `IndexedGraph.Sound` when it has exactly the
positions of the nodes, each under the identifier of the node there.  Putting
nodes in keeps it so, and so does making it anew as long as no identifier
comes twice.

With a sound index every step of finishing is the step of the graph alone:
`toGraph_ofParts`, `toGraph_prune`, `toGraph_classify` and, for all of them
together, `toGraph_finalise`.
-/

namespace CallerGraph

namespace IndexedGraph

variable {indexed : IndexedGraph} {id : NodeId}

/-- Each identifier of a node is in the index with the position of the node,
and nothing else is. -/
def Sound (indexed : IndexedGraph) : Prop :=
  ∀ id position, indexed.index[id]? = some position ↔
    ∃ node : Node, indexed.nodes[position]? = some node ∧ node.id = id

theorem Sound.contains_iff (h : indexed.Sound) :
    indexed.index.contains id = true ↔ id ∈ indexed.nodes.map Node.id := by
  rw [Std.HashMap.contains_eq_isSome_getElem?, Option.isSome_iff_exists, List.mem_map]
  constructor
  · rintro ⟨position, hposition⟩
    obtain ⟨node, hnode, hid⟩ := (h id position).1 hposition
    exact ⟨node, List.mem_of_getElem? hnode, hid⟩
  · rintro ⟨node, hnode, hid⟩
    obtain ⟨position, hposition⟩ := List.getElem?_of_mem hnode
    exact ⟨position, (h id position).2 ⟨node, hposition, hid⟩⟩

/-- Under its identifier the node itself is found, and no other. -/
theorem Sound.nodeAt?_eq_some_iff (h : indexed.Sound) {node : Node} :
    indexed.nodeAt? id = some node ↔ node ∈ indexed.nodes ∧ node.id = id := by
  rw [nodeAt?, Option.bind_eq_some_iff]
  constructor
  · rintro ⟨position, hposition, hnode⟩
    obtain ⟨found, hfound, hid⟩ := (h id position).1 hposition
    obtain rfl : found = node := Option.some.inj (hfound.symm.trans hnode)
    exact ⟨List.mem_of_getElem? hnode, hid⟩
  · rintro ⟨hnode, hid⟩
    obtain ⟨position, hposition⟩ := List.getElem?_of_mem hnode
    exact ⟨position, (h id position).2 ⟨node, hposition, hid⟩, hposition⟩

/-! ### Putting nodes in -/

theorem sound_empty : empty.Sound := by
  intro id position
  simp [empty, Graph.empty]

theorem getElem?_append_singleton_eq_some_iff {α : Type} {items : List α} {item found : α}
    {position : Nat} : (items ++ [item])[position]? = some found ↔
      items[position]? = some found ∨ position = items.length ∧ item = found := by
  grind

theorem Sound.addNode (h : indexed.Sound) (node : Node) : (indexed.addNode node).Sound := by
  unfold IndexedGraph.addNode
  split
  case isTrue => exact h
  case isFalse hnew =>
    intro id position
    have hlast : (∃ found : Node, (indexed.nodes ++ [node])[position]? = some found ∧
        found.id = id) ↔
        indexed.index[id]? = some position ∨ position = indexed.nodes.length ∧ node.id = id := by
      rw [h id position]
      simp only [getElem?_append_singleton_eq_some_iff]
      constructor
      · rintro ⟨found, hfound | ⟨hend, rfl⟩, hid⟩
        · exact Or.inl ⟨found, hfound, hid⟩
        · exact Or.inr ⟨hend, hid⟩
      · rintro (⟨found, hfound, hid⟩ | ⟨hend, hid⟩)
        · exact ⟨found, Or.inl hfound, hid⟩
        · exact ⟨node, Or.inr ⟨hend, rfl⟩, hid⟩
    rw [hlast, Std.HashMap.getElem?_insert]
    by_cases hid : node.id = id
    · have hnone : indexed.index[id]? = none := by
        rw [← hid, ← Option.not_isSome_iff_eq_none, ← Std.HashMap.contains_eq_isSome_getElem?]
        exact hnew
      simp [hid, hnone, eq_comm]
    · simp [hid]

theorem Sound.addNode_of_mem (h : indexed.Sound) {node : Node}
    (hknown : node.id ∈ indexed.nodes.map Node.id) : indexed.addNode node = indexed := by
  rw [IndexedGraph.addNode, if_pos (h.contains_iff.2 hknown)]

theorem Sound.nodes_addNode_of_not_mem (h : indexed.Sound) {node : Node}
    (hnew : node.id ∉ indexed.nodes.map Node.id) :
    (indexed.addNode node).nodes = indexed.nodes ++ [node] := by
  rw [IndexedGraph.addNode, if_neg (mt h.contains_iff.1 hnew)]

/-- Of several nodes those are put in that come first among them with an
identifier that is not there yet. -/
theorem nodes_foldl_addNode (h : indexed.Sound) (nodes : List Node) :
    (nodes.foldl IndexedGraph.addNode indexed).nodes =
      indexed.nodes ++ (Graph.firstById nodes).filter fun node =>
        node.id ∉ indexed.nodes.map Node.id := by
  induction nodes generalizing indexed with
  | nil => simp [Graph.firstById]
  | cons node nodes ih =>
      rw [List.foldl_cons, ih (h.addNode node), Graph.firstById]
      by_cases hknown : node.id ∈ indexed.nodes.map Node.id
      · rw [h.addNode_of_mem hknown, List.filter_cons_of_neg (by simpa using hknown),
          List.filter_filter]
        congr 1
        apply List.filter_congr
        intro other _
        have hother : other.id ∉ indexed.nodes.map Node.id → other.id ≠ node.id :=
          fun hnew heq => hnew (heq ▸ hknown)
        grind
      · rw [h.nodes_addNode_of_not_mem hknown, List.filter_cons_of_pos (by simpa using hknown),
          List.filter_filter, List.append_assoc, List.singleton_append]
        congr 2
        apply List.filter_congr
        intro other _
        rw [Bool.eq_iff_iff]
        simp [and_comm]

theorem sound_foldl_addNode (h : indexed.Sound) (nodes : List Node) :
    (nodes.foldl IndexedGraph.addNode indexed).Sound := by
  induction nodes generalizing indexed with
  | nil => exact h
  | cons node nodes ih => exact ih (h.addNode node)

theorem sound_ofParts (nodes : List Node) (calls : List Call) : (ofParts nodes calls).Sound :=
  sound_foldl_addNode sound_empty nodes

theorem nodes_ofParts (nodes : List Node) (calls : List Call) :
    (ofParts nodes calls).nodes = Graph.firstById nodes := by
  rw [ofParts, nodes_foldl_addNode sound_empty]
  simp [empty, Graph.empty]

theorem toGraph_ofParts (nodes : List Node) (calls : List Call) :
    (ofParts nodes calls).toGraph = Graph.ofParts nodes calls := by
  have hknown : ∀ id, (ofParts nodes calls).index.contains id =
      (Graph.firstById nodes).any (·.id == id) := by
    intro id
    rw [Bool.eq_iff_iff, (sound_ofParts nodes calls).contains_iff, nodes_ofParts]
    simp
  have hfilter : calls.filter (ofParts nodes calls).knowsEnds = calls.filter fun call =>
      (Graph.firstById nodes).any (·.id == call.source) &&
        (Graph.firstById nodes).any (·.id == call.target) := by
    apply List.filter_congr
    intro call _
    rw [knowsEnds, hknown, hknown]
  have hcalls : (ofParts nodes calls).calls = (Graph.ofParts nodes calls).calls :=
    congrArg (fun kept => (CallSet.ofList kept).calls) hfilter
  exact Graph.mk.injEq .. ▸ ⟨nodes_ofParts nodes calls, hcalls⟩

/-! ### Making the index anew -/

theorem map_fst_positions (nodes : List Node) :
    (positions nodes).map Prod.fst = nodes.map Node.id := by
  rw [positions, List.map_map, ← List.zipIdx_map_fst 0 nodes, List.map_map]
  simp

theorem mem_positions_of_getElem? {nodes : List Node} {node : Node} {position : Nat}
    (h : nodes[position]? = some node) : (node.id, position) ∈ positions nodes :=
  List.mem_map.2 ⟨(node, position), List.mk_mem_zipIdx_iff_getElem?.2 h, rfl⟩

theorem sound_ofGraph {graph : Graph} (hnodup : (graph.nodes.map Node.id).Nodup) :
    (ofGraph graph).Sound := by
  have hdistinct : (positions graph.nodes).Pairwise
      fun entry other => (entry.1 == other.1) = false := by
    rw [← map_fst_positions] at hnodup
    exact (List.pairwise_map.1 hnodup).imp beq_false_of_ne
  have hentry : ∀ {position : Nat} {node : Node}, graph.nodes[position]? = some node →
      (ofGraph graph).index[node.id]? = some position := fun hnode =>
    Std.HashMap.getElem?_ofList_of_mem (beq_self_eq_true _) hdistinct
      (mem_positions_of_getElem? hnode)
  intro id position
  constructor
  · intro hposition
    have hid : id ∈ graph.nodes.map Node.id := by
      by_contra hnew
      have hnone : (ofGraph graph).index[id]? = none := by
        apply Std.HashMap.getElem?_ofList_of_contains_eq_false
        rw [map_fst_positions]
        simpa using hnew
      rw [hnone] at hposition
      cases hposition
    obtain ⟨node, hnode, rfl⟩ := List.mem_map.1 hid
    obtain ⟨place, hplace⟩ := List.getElem?_of_mem hnode
    obtain rfl : place = position := Option.some.inj ((hentry hplace).symm.trans hposition)
    exact ⟨node, hplace, rfl⟩
  · rintro ⟨node, hnode, rfl⟩
    exact hentry hnode

theorem prune_of_eq_nil (hnone : indexed.uncalledEntries = []) : indexed.prune = indexed := by
  rw [prune, dif_pos hnone]

theorem prune_of_ne_nil (hsome : indexed.uncalledEntries ≠ []) :
    indexed.prune = (ofGraph indexed.pruneRound).prune := by
  rw [prune, dif_neg hsome]

theorem toGraph_prune (indexed : IndexedGraph) :
    indexed.prune.toGraph = indexed.toGraph.prune := by
  induction indexed using prune.induct with
  | case1 indexed hnone => rw [prune_of_eq_nil hnone, Graph.prune_of_eq_nil hnone]
  | case2 indexed hsome ih =>
      rw [prune_of_ne_nil hsome, Graph.prune_of_ne_nil hsome, ih]
      rfl

theorem Sound.prune (h : indexed.Sound) (hwell : indexed.toGraph.WellFormed) :
    indexed.prune.Sound := by
  induction indexed using prune.induct with
  | case1 indexed hnone => rwa [prune_of_eq_nil hnone]
  | case2 indexed hsome ih =>
      rw [prune_of_ne_nil hsome]
      exact ih (sound_ofGraph hwell.pruneRound.ids_nodup) hwell.pruneRound

/-! ### Counting -/

/-- A tally holds how often each identifier occurs. -/
theorem getD_tally (ids : List NodeId) (id : NodeId) : (tally ids).getD id 0 = ids.count id := by
  induction ids using List.reverseRecOn with
  | nil => simp [tally]
  | append_singleton ids other ih =>
      rw [tally, List.foldl_append, List.foldl_cons, List.foldl_nil, ← tally,
        Std.HashMap.getD_insert, List.count_append, List.count_singleton]
      by_cases hid : other = id
      · simp [hid, ih]
      · simp [hid, ih]

theorem toGraph_classify (indexed : IndexedGraph) :
    indexed.classify.toGraph = indexed.toGraph.classify := by
  have hincoming : ∀ id,
      (tally (indexed.calls.map Call.target)).getD id 0 = indexed.inDegree id := by
    intro id
    rw [getD_tally, List.count_eq_countP, List.countP_map]
    rfl
  have houtgoing : ∀ id,
      (tally (indexed.calls.map Call.source)).getD id 0 = indexed.outDegree id := by
    intro id
    rw [getD_tally, List.count_eq_countP, List.countP_map]
    rfl
  simp only [classify, Graph.classify, hincoming, houtgoing]

theorem Sound.classify (h : indexed.Sound) : indexed.classify.Sound := by
  intro id position
  have hnodes : indexed.classify.nodes = indexed.toGraph.classify.nodes := by
    rw [toGraph_classify]
  rw [hnodes, Graph.classify, List.getElem?_map]
  refine (h id position).trans ?_
  cases indexed.nodes[position]? with
  | none => simp
  | some node => simp

/-! ### Finishing -/

/-- Finishing with an index is finishing. -/
theorem toGraph_finalise (nodes : List Node) (calls : List Call) (pruned : Bool) :
    (finalise nodes calls pruned).toGraph = Graph.finalise nodes calls pruned := by
  rw [finalise, toGraph_classify, Graph.finalise]
  cases pruned with
  | true => rw [if_pos rfl, if_pos rfl, toGraph_prune, toGraph_ofParts]
  | false => rw [if_neg Bool.false_ne_true, if_neg Bool.false_ne_true, toGraph_ofParts]

/-- The index of a finished graph is right. -/
theorem sound_finalise (nodes : List Node) (calls : List Call) (pruned : Bool) :
    (finalise nodes calls pruned).Sound := by
  have hgathered := sound_ofParts nodes calls
  cases pruned with
  | true =>
      have hwell : (ofParts nodes calls).toGraph.WellFormed := by
        rw [toGraph_ofParts]
        exact Graph.wellFormed_ofParts nodes calls
      exact (hgathered.prune hwell).classify
  | false => exact hgathered.classify

end IndexedGraph

end CallerGraph
