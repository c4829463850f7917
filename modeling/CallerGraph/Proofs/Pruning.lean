import CallerGraph.Proofs.Portrait
import CallerGraph.Proofs.WellFormed
import Mathlib.Order.Bounds.Basic

/-!
# What pruning leaves

A set of nodes of a graph can stay when each entry in it is called by a node
of the set, by a plain call or a recursive one, from elsewhere or from
itself.  Such sets are `Graph.Admissible`, and pruning leaves the greatest of
them.

Two facts carry this through the rounds.  A round takes no node of an
admissible set away: an entry that nobody calls is in none.  So the set is
still there, and still admissible, when there is nothing left to take away.
And then what is left is admissible itself, since no entry without a call to
it is left.

What a round takes away nobody calls.  That is why the nodes that stay keep
all the calls that they make.
-/

namespace CallerGraph

namespace Graph

variable {graph : Graph} {kept : Set NodeId} {id : NodeId}

/-- Nodes of the graph that can stay when all others go: each entry among
them has a caller among them. -/
structure Admissible (graph : Graph) (kept : Set NodeId) : Prop where
  known : ∀ id ∈ kept, id ∈ graph.nodes.map Node.id
  called : ∀ node ∈ graph.nodes, node.isEntry = true → node.id ∈ kept →
    ∃ call ∈ graph.calls, call.target = node.id ∧ call.source ∈ kept

theorem mem_uncalledEntries_iff :
    id ∈ graph.uncalledEntries ↔
      (∃ node ∈ graph.nodes, node.isEntry = true ∧ node.id = id) ∧
        ∀ call ∈ graph.calls, call.target ≠ id := by
  simp only [uncalledEntries, List.mem_map, List.mem_filter, Bool.and_eq_true, beq_iff_eq,
    inDegree_eq_zero_iff]
  constructor
  · rintro ⟨node, ⟨hnode, hentry, hnone⟩, rfl⟩
    exact ⟨⟨node, hnode, hentry, rfl⟩, hnone⟩
  · rintro ⟨⟨node, hnode, hentry, rfl⟩, hnone⟩
    exact ⟨node, ⟨hnode, hentry, hnone⟩, rfl⟩

/-! ### No round takes a node of an admissible set away -/

/-- An entry that nobody calls is in no admissible set. -/
theorem Admissible.not_mem_uncalledEntries (h : graph.Admissible kept) (hid : id ∈ kept) :
    id ∉ graph.uncalledEntries := by
  intro huncalled
  obtain ⟨⟨node, hnode, hentry, rfl⟩, hnone⟩ := mem_uncalledEntries_iff.1 huncalled
  obtain ⟨call, hcall, htarget, -⟩ := h.called node hnode hentry hid
  exact hnone call hcall htarget

theorem Admissible.pruneRound (h : graph.Admissible kept) : graph.pruneRound.Admissible kept where
  known id hid := by
    obtain ⟨node, hnode, rfl⟩ := List.mem_map.1 (h.known id hid)
    exact List.mem_map_of_mem (mem_nodes_without.2 ⟨hnode, h.not_mem_uncalledEntries hid⟩)
  called node hnode hentry hkept := by
    obtain ⟨call, hcall, htarget, hsource⟩ :=
      h.called node (mem_nodes_without.1 hnode).1 hentry hkept
    have hstays := mem_calls_without.2 ⟨hcall, h.not_mem_uncalledEntries hsource,
      htarget ▸ h.not_mem_uncalledEntries hkept⟩
    exact ⟨call, hstays, htarget, hsource⟩

theorem Admissible.prune (h : graph.Admissible kept) : graph.prune.Admissible kept :=
  prune_induction (motive := fun graph => graph.Admissible kept) (fun _ h => h.pruneRound) h

/-! ### What is left is admissible -/

theorem uncalledEntries_prune (graph : Graph) : graph.prune.uncalledEntries = [] := by
  induction graph using prune.induct with
  | case1 graph hnone => rwa [prune_of_eq_nil hnone]
  | case2 graph hsome ih => rwa [prune_of_ne_nil hsome]

theorem without_nil (graph : Graph) : graph.without [] = graph := by
  simp [without]

theorem without_without (graph : Graph) (ids others : List NodeId) :
    (graph.without ids).without others = graph.without (ids ++ others) := by
  simp only [without, List.filter_filter]
  congr 1
  · apply List.filter_congr
    intro node _
    simp [Bool.and_comm]
  · apply List.filter_congr
    intro call _
    simp [Bool.and_comm, Bool.and_left_comm, Bool.and_assoc]

/-- All that the rounds take away could be taken away at once. -/
theorem exists_prune_eq_without (graph : Graph) : ∃ ids, graph.prune = graph.without ids := by
  induction graph using prune.induct with
  | case1 graph hnone => exact ⟨[], by rw [prune_of_eq_nil hnone, without_nil]⟩
  | case2 graph hsome ih =>
      obtain ⟨ids, hids⟩ := ih
      refine ⟨graph.uncalledEntries ++ ids, ?_⟩
      rw [prune_of_ne_nil hsome, hids, Graph.pruneRound, without_without]

theorem containsNode_without {ids : List NodeId} :
    (graph.without ids).containsNode id = true ↔ graph.containsNode id = true ∧ id ∉ ids := by
  simp only [containsNode_iff, List.mem_map, mem_nodes_without]
  constructor
  · rintro ⟨node, ⟨hnode, hkept⟩, rfl⟩
    exact ⟨⟨node, hnode, rfl⟩, hkept⟩
  · rintro ⟨⟨node, hnode, rfl⟩, hkept⟩
    exact ⟨node, ⟨hnode, hkept⟩, rfl⟩

/-- The nodes that stay are in the order in which they were. -/
theorem nodes_prune (graph : Graph) :
    graph.prune.nodes = graph.nodes.filter fun node => graph.prune.containsNode node.id := by
  obtain ⟨ids, hids⟩ := exists_prune_eq_without graph
  rw [hids, without]
  apply List.filter_congr
  intro node hnode
  have hknown : graph.containsNode node.id = true := containsNode_of_mem hnode
  rw [Bool.eq_iff_iff, ← without, containsNode_without]
  simp [hknown]

/-- The calls that stay are those between nodes that stay. -/
theorem WellFormed.calls_prune (h : graph.WellFormed) :
    graph.prune.calls = graph.calls.filter fun call =>
      graph.prune.containsNode call.source && graph.prune.containsNode call.target := by
  obtain ⟨ids, hids⟩ := exists_prune_eq_without graph
  rw [hids, without]
  apply List.filter_congr
  intro call hcall
  obtain ⟨hsource, htarget⟩ := h.joins call hcall
  rw [Bool.eq_iff_iff, ← without, Bool.and_eq_true, containsNode_without, containsNode_without]
  simp [containsNode_iff.2 hsource, containsNode_iff.2 htarget]

theorem WellFormed.admissible_prune (h : graph.WellFormed) :
    graph.Admissible {id | graph.prune.containsNode id = true} where
  known id hid := by
    obtain ⟨ids, hids⟩ := exists_prune_eq_without graph
    have hleft : (graph.without ids).containsNode id = true := hids ▸ hid
    exact containsNode_iff.1 (containsNode_without.1 hleft).1
  called node hnode hentry hkept := by
    have hstays : node ∈ graph.prune.nodes := by
      rw [nodes_prune]
      exact List.mem_filter.2 ⟨hnode, hkept⟩
    have hcalled : ∃ call ∈ graph.prune.calls, call.target = node.id := by
      by_contra hnone
      have huncalled := mem_uncalledEntries_iff.2
        ⟨⟨node, hstays, hentry, rfl⟩, fun call hcall htarget => hnone ⟨call, hcall, htarget⟩⟩
      rw [uncalledEntries_prune] at huncalled
      exact List.not_mem_nil huncalled
    obtain ⟨call, hcall, htarget⟩ := hcalled
    rw [h.calls_prune, List.mem_filter, Bool.and_eq_true] at hcall
    exact ⟨call, hcall.1, htarget, hcall.2.1⟩

/-- What is left is the greatest set that can stay. -/
theorem WellFormed.isGreatest_prune (h : graph.WellFormed) :
    IsGreatest {kept | graph.Admissible kept} {id | graph.prune.containsNode id = true} :=
  ⟨h.admissible_prune, fun _ hkept id hid => containsNode_iff.2 (hkept.prune.known id hid)⟩

/-! ### What else stays -/

/-- Only entries go. -/
theorem WellFormed.mem_prune_of_not_isEntry (h : graph.WellFormed) {node : Node}
    (hnode : node ∈ graph.nodes) (hentry : node.isEntry = false) : node ∈ graph.prune.nodes := by
  have hboth : graph.prune.WellFormed ∧ node ∈ graph.prune.nodes := by
    refine prune_induction (motive := fun graph => graph.WellFormed ∧ node ∈ graph.nodes) ?_
      ⟨h, hnode⟩
    intro graph hbefore
    refine ⟨hbefore.1.pruneRound, mem_nodes_without.2 ⟨hbefore.2, ?_⟩⟩
    intro huncalled
    obtain ⟨⟨other, hother, hotherEntry, hid⟩, -⟩ := mem_uncalledEntries_iff.1 huncalled
    rw [hbefore.1.eq_of_id_eq hother hbefore.2 hid, hentry] at hotherEntry
    cases hotherEntry
  exact hboth.2

/-- A round takes away nothing that is called, so that a node that stays
makes as many calls as before. -/
theorem outDegree_pruneRound (hid : id ∉ graph.uncalledEntries) :
    graph.pruneRound.outDegree id = graph.outDegree id := by
  rw [outDegree, outDegree, pruneRound, without, List.countP_filter]
  apply List.countP_congr
  intro call hcall
  have htarget : call.target ∉ graph.uncalledEntries :=
    fun huncalled => (mem_uncalledEntries_iff.1 huncalled).2 call hcall rfl
  by_cases hsource : call.source = id
  · simp [hsource, hid, htarget]
  · simp [hsource]

theorem outDegree_prune (hid : graph.prune.containsNode id = true) :
    graph.prune.outDegree id = graph.outDegree id := by
  induction graph using prune.induct with
  | case1 graph hnone => rw [prune_of_eq_nil hnone]
  | case2 graph hsome ih =>
      rw [prune_of_ne_nil hsome] at hid ⊢
      obtain ⟨ids, hids⟩ := exists_prune_eq_without graph.pruneRound
      have hround : graph.pruneRound.containsNode id = true := by
        rw [hids, containsNode_without] at hid
        exact hid.1
      rw [ih hid, outDegree_pruneRound (containsNode_without.1 hround).2]

/-! ### The rounds -/

theorem pruneCounts_of_eq_nil (hnone : graph.uncalledEntries = []) : graph.pruneCounts = [] := by
  rw [pruneCounts, dif_pos hnone]

theorem pruneCounts_of_ne_nil (hsome : graph.uncalledEntries ≠ []) :
    graph.pruneCounts = graph.uncalledEntries.length :: graph.pruneRound.pruneCounts := by
  rw [pruneCounts, dif_neg hsome]

/-- Pruning makes as many rounds as it tells. -/
theorem prune_eq_iterate (graph : Graph) :
    graph.prune = Graph.pruneRound^[graph.pruneCounts.length] graph := by
  induction graph using prune.induct with
  | case1 graph hnone =>
      rw [prune_of_eq_nil hnone, pruneCounts_of_eq_nil hnone, List.length_nil,
        Function.iterate_zero, id_eq]
  | case2 graph hsome ih =>
      rw [prune_of_ne_nil hsome, pruneCounts_of_ne_nil hsome, List.length_cons,
        Function.iterate_succ_apply, ih]

/-- Every round takes at least one node away, so there are no more rounds
than nodes. -/
theorem length_pruneCounts_le (graph : Graph) : graph.pruneCounts.length ≤ graph.nodes.length := by
  induction graph using prune.induct with
  | case1 graph hnone =>
      rw [pruneCounts_of_eq_nil hnone]
      exact Nat.zero_le _
  | case2 graph hsome ih =>
      have hfewer := length_pruneRound_lt hsome
      rw [pruneCounts_of_ne_nil hsome, List.length_cons]
      omega

/-! ### The finished graph -/

/-- The node in the role that the calls of a graph give it. -/
def placed (graph : Graph) (node : Node) : Node :=
  { node with role := .classify (graph.inDegree node.id) (graph.outDegree node.id) }

theorem nodes_classify (graph : Graph) : graph.classify.nodes = graph.nodes.map graph.placed := rfl

theorem containsNode_classify (graph : Graph) (id : NodeId) :
    graph.classify.containsNode id = graph.containsNode id := by
  rw [Bool.eq_iff_iff, containsNode_iff, containsNode_iff, ids_classify]

/-- Roles have no say in what can stay. -/
theorem admissible_classify : graph.classify.Admissible kept ↔ graph.Admissible kept := by
  constructor
  · intro h
    refine ⟨fun id hid => @ids_classify graph ▸ h.known id hid, ?_⟩
    intro node hnode hentry hkept
    exact h.called (graph.placed node) (List.mem_map_of_mem hnode) hentry hkept
  · intro h
    refine ⟨fun id hid => (@ids_classify graph).symm ▸ h.known id hid, ?_⟩
    intro node hnode hentry hkept
    obtain ⟨before, hbefore, rfl⟩ := List.mem_map.1 hnode
    exact h.called before hbefore hentry hkept

/-- **Pruning leaves the greatest set of nodes that can stay.**  Its rounds
come to an end, at the latest when there have been as many as nodes, with no
uncalled entry left.  What is left of the unpruned graph is the greatest set
in which each entry has a caller; all that are no entries are in it.  The
calls between its nodes stay, in their order and with their flags, and no
others.  The nodes stay in their order and as they are, but for the roles,
which the calls that are left decide, and they make as many calls as before. -/
theorem finalise_pruned_greatest (nodes : List Node) (calls : List Call) :
    let whole := finalise nodes calls false
    let pruned := finalise nodes calls true
    (∃ rounds ≤ whole.nodes.length,
      pruned = (Graph.pruneRound^[rounds] (ofParts nodes calls)).classify ∧
        (Graph.pruneRound^[rounds] (ofParts nodes calls)).uncalledEntries = []) ∧
      IsGreatest {kept | whole.Admissible kept} {id | pruned.containsNode id = true} ∧
      (∀ node ∈ whole.nodes, node.isEntry = false → pruned.containsNode node.id = true) ∧
      pruned.calls = (whole.calls.filter fun call =>
        pruned.containsNode call.source && pruned.containsNode call.target) ∧
      pruned.nodes =
        (whole.nodes.filter fun node => pruned.containsNode node.id).map pruned.placed ∧
      ∀ node ∈ pruned.nodes, pruned.outDegree node.id = whole.outDegree node.id := by
  intro whole pruned
  let gathered := ofParts nodes calls
  have h : gathered.WellFormed := wellFormed_ofParts nodes calls
  have hcontains : pruned.containsNode = gathered.prune.containsNode :=
    funext (containsNode_classify gathered.prune)
  have hstart : whole.nodes = gathered.nodes.map gathered.placed := nodes_classify gathered
  have hend : pruned.nodes = gathered.prune.nodes.map pruned.placed := nodes_classify gathered.prune
  refine ⟨⟨gathered.pruneCounts.length, ?_, ?_, ?_⟩, ?_, ?_, ?_, ?_, ?_⟩
  · rw [hstart, List.length_map]
    exact length_pruneCounts_le gathered
  · exact congrArg classify (prune_eq_iterate gathered)
  · rw [← prune_eq_iterate]
    exact uncalledEntries_prune gathered
  · have hadmissible : ∀ kept, whole.Admissible kept ↔ gathered.Admissible kept :=
      fun kept => admissible_classify
    simpa only [hadmissible, hcontains] using h.isGreatest_prune
  · intro node hnode hentry
    obtain ⟨before, hbefore, rfl⟩ := List.mem_map.1 (hstart ▸ hnode)
    have hstays : gathered.prune.containsNode before.id = true :=
      containsNode_of_mem (h.mem_prune_of_not_isEntry hbefore hentry)
    rw [hcontains]
    exact hstays
  · rw [hcontains]
    exact h.calls_prune
  · rw [hend, hstart, List.filter_map, List.map_map, hcontains]
    conv_lhs => rw [nodes_prune]
    rfl
  · intro node hnode
    obtain ⟨before, hbefore, rfl⟩ := List.mem_map.1 (hend ▸ hnode)
    have hstays : gathered.prune.containsNode before.id = true := containsNode_of_mem hbefore
    exact outDegree_prune hstays

end Graph

end CallerGraph
