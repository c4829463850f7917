import CallerGraph.Graph.Document
import CallerGraph.Proofs.FinishedGraph

/-!
# Finishing again

A graph that is finished can be finished once more.  That gives the graph which
finishing the gathered nodes and calls once would have given, with pruning if it
was asked for either time: `refinalise_finalise`, and over any history of it
`foldl_refinalise`.

The second time the nodes come with roles, given by the calls that there were
the first time, and pruning goes on from there.  `Graph.recast` is a graph with
its nodes in other roles.  Pruning does not look at roles and classifying forgets
them, so that it makes no difference which ones there were.
-/

namespace CallerGraph

namespace Graph

/-- The graph with its nodes in other roles. -/
def recast (role : NodeId → Role) (graph : Graph) : Graph :=
  { graph with nodes := graph.nodes.map fun node => { node with role := role node.id } }

variable {graph : Graph} (role : NodeId → Role)

/-! ### Roles that were given before -/

/-- Classifying is recasting. -/
theorem classify_eq_recast (graph : Graph) :
    graph.classify =
      graph.recast fun id => .classify (graph.inDegree id) (graph.outDegree id) := rfl

theorem classify_recast (graph : Graph) : (graph.recast role).classify = graph.classify := by
  simp only [classify, recast, List.map_map]
  rfl

theorem uncalledEntries_recast (graph : Graph) :
    (graph.recast role).uncalledEntries = graph.uncalledEntries := by
  simp only [uncalledEntries, recast, List.filter_map, List.map_map]
  rfl

theorem without_recast (graph : Graph) (ids : List NodeId) :
    (graph.recast role).without ids = (graph.without ids).recast role := by
  simp only [without, recast, List.filter_map]
  rfl

theorem pruneRound_recast (graph : Graph) :
    (graph.recast role).pruneRound = graph.pruneRound.recast role := by
  rw [pruneRound, uncalledEntries_recast, without_recast, pruneRound]

/-- Pruning does not look at roles. -/
theorem prune_recast (graph : Graph) : (graph.recast role).prune = graph.prune.recast role := by
  induction graph using prune.induct with
  | case1 graph hnone =>
      have hrecast : (graph.recast role).uncalledEntries = [] := by
        rw [uncalledEntries_recast, hnone]
      rw [prune_of_eq_nil hnone, prune_of_eq_nil hrecast]
  | case2 graph hsome ih =>
      have hrecast : (graph.recast role).uncalledEntries ≠ [] := by
        rwa [uncalledEntries_recast]
      rw [prune_of_ne_nil hsome, prune_of_ne_nil hrecast, pruneRound_recast, ih]

/-- There is nothing to take away twice. -/
theorem prune_prune (graph : Graph) : graph.prune.prune = graph.prune :=
  prune_of_eq_nil (uncalledEntries_prune graph)

/-! ### Once more -/

/-- A classified graph is finished once more as if it were not classified. -/
theorem WellFormed.refinalise_classify (h : graph.WellFormed) (pruned : Bool) :
    graph.classify.refinalise pruned = (if pruned then graph.prune else graph).classify := by
  rw [refinalise, finalise, h.classify.ofParts_eq]
  cases pruned with
  | true =>
      simp only [if_true]
      rw [classify_eq_recast graph, prune_recast, classify_recast]
  | false =>
      simp only [Bool.false_eq_true, if_false]
      exact classify_classify graph

/-- **Finishing twice is finishing once,** with pruning if either time asked for
it. -/
theorem refinalise_finalise (nodes : List Node) (calls : List Call) (earlier later : Bool) :
    (finalise nodes calls earlier).refinalise later = finalise nodes calls (earlier || later) := by
  have hgathered := wellFormed_ofParts nodes calls
  cases earlier with
  | false => exact hgathered.refinalise_classify later
  | true =>
      have hagain := hgathered.prune.refinalise_classify later
      rw [prune_prune, ite_self] at hagain
      exact hagain

/-- However often a graph is finished, pruning counts once. -/
theorem foldl_refinalise (nodes : List Node) (calls : List Call) (pruned : Bool)
    (later : List Bool) :
    later.foldl refinalise (finalise nodes calls pruned) =
      finalise nodes calls (pruned || later.any id) := by
  induction later generalizing pruned with
  | nil => rw [List.foldl_nil, List.any_nil, Bool.or_false]
  | cons flag later ih =>
      rw [List.foldl_cons, refinalise_finalise, ih, List.any_cons, id_eq, Bool.or_assoc]

end Graph

namespace IndexedGraph

variable {indexed other : IndexedGraph}

/-- Right indices of the same nodes have the same positions. -/
theorem Sound.getElem?_index_congr (h : indexed.Sound) (hother : other.Sound)
    (hnodes : indexed.nodes = other.nodes) (id : NodeId) :
    indexed.index[id]? = other.index[id]? := by
  apply Option.ext
  intro position
  rw [h id position, hother id position, hnodes]

end IndexedGraph

namespace Graph

/-- **Refinishing composes.**  A graph that is finished and finished once more is
the graph that is finished once, with pruning if either time asked for it.  Node
for node and call for call it is the same graph, and so is its text.

* Finishing in the same way again changes nothing.
* After pruning nothing changes any more, with or without pruning.
* Pruning later is pruning at once.

The same holds of any number of times.  With the index kept beside the graph it
holds as well, and the index has the same positions in the end. -/
theorem refinalise_composes (nodes : List Node) (calls : List Call) (earlier later : Bool) :
    let finished := finalise nodes calls
    let indexed := IndexedGraph.finalise nodes calls
    (finished earlier).refinalise later = finished (earlier || later) ∧
      ((finished earlier).refinalise later).payload = (finished (earlier || later)).payload ∧
      (finished earlier).refinalise earlier = finished earlier ∧
      (finished true).refinalise later = finished true ∧
      (finished false).refinalise later = finished later ∧
      ∀ flags : List Bool,
        let once := indexed (earlier || flags.any id)
        let again := flags.foldl IndexedGraph.refinalise (indexed earlier)
        flags.foldl refinalise (finished earlier) = finished (earlier || flags.any id) ∧
          again.toGraph = once.toGraph ∧
          ∀ id : NodeId, again.index[id]? = once.index[id]? := by
  intro finished indexed
  have hcompose := refinalise_finalise nodes calls
  have hsame := hcompose earlier earlier
  rw [Bool.or_self] at hsame
  refine ⟨hcompose earlier later, congrArg payload (hcompose earlier later), hsame,
    hcompose true later, hcompose false later, ?_⟩
  intro flags once again
  have hgraph : again.toGraph = once.toGraph := by
    rw [IndexedGraph.toGraph_foldl_refinalise, IndexedGraph.toGraph_finalise,
      IndexedGraph.toGraph_finalise]
    exact foldl_refinalise nodes calls earlier flags
  have honce : once.Sound := IndexedGraph.sound_finalise nodes calls _
  have hagain : again.Sound :=
    (IndexedGraph.sound_finalise nodes calls earlier).foldl_refinalise flags
  exact ⟨foldl_refinalise nodes calls earlier flags, hgraph,
    hagain.getElem?_index_congr honce (congrArg Graph.nodes hgraph)⟩

end Graph

end CallerGraph
