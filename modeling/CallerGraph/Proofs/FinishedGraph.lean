import CallerGraph.Proofs.Index
import CallerGraph.Proofs.Pruning

/-!
# Finished graphs

A graph can be finished more than once, pruned or not each time, and from
whatever nodes and calls it was put together at first, the same can be said
of it afterwards.  It is well formed; its nodes are the first ones that were
given with their identifiers, in the order in which they were given; and only
the roles are its own, which the number of calls to and from each node
decides.

One step of this is `KeepsFirst.refinalise`, and the history is an induction
over the flags.  As long as nothing is pruned, the first step decides
everything, since a graph that is only classified is classified as it was.
-/

namespace CallerGraph

namespace Graph

variable {graph : Graph} {nodes : List Node} {calls : List Call}

/-- The nodes of the graph are, in order, the first of the given ones with
their identifiers, each in the role that the calls of the graph give it. -/
def KeepsFirst (nodes : List Node) (graph : Graph) : Prop :=
  ∃ kept : List Node, kept.Sublist nodes ∧
    (∀ node ∈ kept, nodes.find? (·.id == node.id) = some node) ∧
    graph.nodes = kept.map graph.placed

theorem wellFormed_finalise (nodes : List Node) (calls : List Call) (pruned : Bool) :
    (finalise nodes calls pruned).WellFormed := by
  have hgathered := wellFormed_ofParts nodes calls
  cases pruned with
  | true => exact hgathered.prune.classify
  | false => exact hgathered.classify

/-- Finishing keeps some of the gathered nodes, in order, and gives them
their roles. -/
theorem nodes_finalise (nodes : List Node) (calls : List Call) (pruned : Bool) :
    let finished := finalise nodes calls pruned
    finished.nodes = ((firstById nodes).filter fun node => finished.containsNode node.id).map
      finished.placed := by
  intro finished
  let gathered := ofParts nodes calls
  cases pruned with
  | true =>
      have hcontains : finished.containsNode = gathered.prune.containsNode :=
        funext (containsNode_classify gathered.prune)
      rw [hcontains]
      exact congrArg (List.map finished.placed) (nodes_prune gathered)
  | false =>
      have hall : ∀ node ∈ firstById nodes, finished.containsNode node.id = true := by
        intro node hnode
        have hthere : gathered.containsNode node.id = true := containsNode_of_mem hnode
        exact (containsNode_classify gathered node.id).trans hthere
      rw [List.filter_eq_self.2 hall]
      rfl

theorem keepsFirst_finalise (nodes : List Node) (calls : List Call) (pruned : Bool) :
    (finalise nodes calls pruned).KeepsFirst nodes := by
  refine ⟨_, List.filter_sublist.trans (firstById_sublist nodes), ?_,
    nodes_finalise nodes calls pruned⟩
  intro node hnode
  exact mem_firstById.1 (List.mem_filter.1 hnode).1

/-- Finishing once more keeps first nodes among those that were kept. -/
theorem KeepsFirst.refinalise (h : graph.KeepsFirst nodes) (hwell : graph.WellFormed)
    (pruned : Bool) : (graph.refinalise pruned).KeepsFirst nodes := by
  obtain ⟨kept, hsublist, hfirst, hnodes⟩ := h
  let again := graph.refinalise pruned
  have hagain : again.nodes =
      (graph.nodes.filter fun node => again.containsNode node.id).map again.placed := by
    have hfinish := nodes_finalise graph.nodes graph.calls pruned
    rwa [firstById_eq_self hwell.ids_nodup] at hfinish
  refine ⟨kept.filter fun node => again.containsNode node.id,
    List.filter_sublist.trans hsublist,
    fun node hnode => hfirst node (List.mem_filter.1 hnode).1, ?_⟩
  -- A role that was given before is given anew.
  rw [hagain, hnodes, List.filter_map, List.map_map]
  rfl

/-- Whatever was finished before, finishing leaves a well-formed graph of
first nodes. -/
theorem keepsFirst_foldl_refinalise (hwell : graph.WellFormed) (h : graph.KeepsFirst nodes)
    (later : List Bool) :
    (later.foldl refinalise graph).WellFormed ∧
      (later.foldl refinalise graph).KeepsFirst nodes := by
  induction later generalizing graph with
  | nil => exact ⟨hwell, h⟩
  | cons pruned later ih =>
      exact ih (wellFormed_finalise graph.nodes graph.calls pruned) (h.refinalise hwell pruned)

theorem KeepsFirst.role_eq (h : graph.KeepsFirst nodes) {node : Node} (hnode : node ∈ graph.nodes) :
    node.role = .classify (graph.inDegree node.id) (graph.outDegree node.id) := by
  obtain ⟨kept, -, -, hnodes⟩ := h
  obtain ⟨before, -, rfl⟩ := List.mem_map.1 (hnodes ▸ hnode)
  rfl

/-! ### Finishing without pruning -/

theorem classify_classify (graph : Graph) : graph.classify.classify = graph.classify := by
  simp [classify, inDegree, outDegree]

/-- A graph that is classified already is left as it is. -/
theorem WellFormed.foldl_refinalise (h : graph.WellFormed) {later : List Bool}
    (hlater : ∀ pruned ∈ later, pruned = false) :
    later.foldl refinalise graph.classify = graph.classify := by
  induction later with
  | nil => rfl
  | cons pruned later ih =>
      obtain rfl : pruned = false := hlater pruned List.mem_cons_self
      have hsame : graph.classify.refinalise false = graph.classify := by
        rw [refinalise, finalise, h.classify.ofParts_eq]
        exact classify_classify graph
      rw [List.foldl_cons, hsame, ih fun flag hflag => hlater flag (List.mem_cons_of_mem _ hflag)]

/-- The pairs between known nodes, in the order in which they first came. -/
theorem ends_ofParts (nodes : List Node) (calls : List Call) :
    (ofParts nodes calls).calls.map Call.ends =
      ((calls.filter fun call => decide (call.source ∈ nodes.map Node.id ∧
        call.target ∈ nodes.map Node.id)).map Call.ends).eraseDups := by
  have hknown : ∀ id, (firstById nodes).any (·.id == id) = decide (id ∈ nodes.map Node.id) := by
    intro id
    rw [Bool.eq_iff_iff, decide_eq_true_iff, ← mem_ids_firstById]
    simp
  rw [ofParts, CallSet.ends_ofList]
  simp only [hknown, Bool.decide_and]

end Graph

namespace IndexedGraph

variable {indexed : IndexedGraph}

theorem toGraph_foldl_refinalise (indexed : IndexedGraph) (later : List Bool) :
    (later.foldl refinalise indexed).toGraph = later.foldl Graph.refinalise indexed.toGraph := by
  induction later generalizing indexed with
  | nil => rfl
  | cons pruned later ih =>
      rw [List.foldl_cons, List.foldl_cons, ih, refinalise, toGraph_finalise, Graph.refinalise]

theorem Sound.foldl_refinalise (h : indexed.Sound) (later : List Bool) :
    (later.foldl refinalise indexed).Sound := by
  induction later generalizing indexed with
  | nil => exact h
  | cons pruned later ih => exact ih (sound_finalise indexed.nodes indexed.calls pruned)

end IndexedGraph

namespace Graph

/-- **What can be said of every finished graph.**  Whatever nodes and calls
it was put together from, and however often it was finished since: it is well
formed, its nodes are the first ones given with their identifiers, in order
and as they were given but for their roles, and the roles are those that the
numbers of calls to and from the nodes decide.  The index kept beside it,
through all steps, has the nodes at their positions and nothing else, so that
what is asked through the index is answered as from the list of nodes.

If nothing was pruned, all identifiers that were given are still there, and
the calls are one for each pair that was given between nodes that are there,
in the order in which the pairs first came, recursive only if every call of
the pair was. -/
theorem finished_after_any_history (nodes : List Node) (calls : List Call) (pruned : Bool)
    (later : List Bool) :
    let indexed := later.foldl IndexedGraph.refinalise (IndexedGraph.finalise nodes calls pruned)
    let graph := later.foldl refinalise (finalise nodes calls pruned)
    graph.WellFormed ∧
      graph.KeepsFirst nodes ∧
      (∀ node ∈ graph.nodes,
        node.role = .classify (graph.inDegree node.id) (graph.outDegree node.id)) ∧
      indexed.toGraph = graph ∧
      indexed.Sound ∧
      (∀ id, indexed.knows id = true ↔ id ∈ graph.nodes.map Node.id) ∧
      (∀ id node, indexed.nodeAt? id = some node ↔ node ∈ graph.nodes ∧ node.id = id) ∧
      (∀ id, graph.containsNode id = indexed.knows id ∧ graph.node? id = indexed.nodeAt? id) ∧
      ((∀ flag ∈ pruned :: later, flag = false) →
        (∀ id, id ∈ graph.nodes.map Node.id ↔ id ∈ nodes.map Node.id) ∧
        graph.calls.map Call.ends =
          ((calls.filter fun call => decide (call.source ∈ nodes.map Node.id ∧
            call.target ∈ nodes.map Node.id)).map Call.ends).eraseDups ∧
        ∀ call ∈ graph.calls, call.recursive = true ↔
          ∀ given ∈ calls, given.ends = call.ends → given.recursive = true) := by
  intro indexed graph
  obtain ⟨hwell, hfirst⟩ := keepsFirst_foldl_refinalise (wellFormed_finalise nodes calls pruned)
    (keepsFirst_finalise nodes calls pruned) later
  have hgraph : indexed.toGraph = graph := by
    rw [IndexedGraph.toGraph_foldl_refinalise, IndexedGraph.toGraph_finalise]
  have hsound : indexed.Sound :=
    (IndexedGraph.sound_finalise nodes calls pruned).foldl_refinalise later
  have hknows : ∀ id, indexed.knows id = true ↔ id ∈ graph.nodes.map Node.id := by
    intro id
    rw [← hgraph]
    exact hsound.contains_iff
  have hnodeAt : ∀ id node, indexed.nodeAt? id = some node ↔ node ∈ graph.nodes ∧ node.id = id := by
    intro id node
    rw [← hgraph]
    exact hsound.nodeAt?_eq_some_iff
  refine ⟨hwell, hfirst, fun node => hfirst.role_eq, hgraph, hsound, hknows, hnodeAt, ?_, ?_⟩
  · intro id
    refine ⟨?_, ?_⟩
    · rw [Bool.eq_iff_iff, containsNode_iff, hknows]
    · apply Option.ext
      intro node
      rw [hwell.node?_eq_some_iff, hnodeAt]
  · intro hflags
    have hunpruned : graph = (ofParts nodes calls).classify := by
      obtain rfl : pruned = false := hflags pruned List.mem_cons_self
      exact (wellFormed_ofParts nodes calls).foldl_refinalise
        fun flag hflag => hflags flag (List.mem_cons_of_mem _ hflag)
    rw [hunpruned, ids_classify]
    refine ⟨fun id => mem_ids_firstById, ends_ofParts nodes calls, ?_⟩
    intro call hcall
    exact (mem_calls_ofParts.1 hcall).2.2

/-- Three nodes, two of them with the same identifier. -/
def repeatedNodes : List Node :=
  [.ofParts ⟨"node1"⟩ (.placeholder "start") "#4080c0" true,
    .ofParts ⟨"node2"⟩ (.placeholder "work") "#4080c0" false,
    .ofParts ⟨"node1"⟩ (.placeholder "stop") "#4080c0" false]

/-- A pair that comes as recursive and as not recursive, and a call from a
node that is not there. -/
def repeatedCalls : List Call :=
  [⟨⟨"node2"⟩, ⟨"node1"⟩, true⟩, ⟨⟨"node9"⟩, ⟨"node1"⟩, false⟩, ⟨⟨"node2"⟩, ⟨"node1"⟩, false⟩]

theorem finished_after_any_history_repeated :
    (∀ flag ∈ [false, false], flag = false) ∧
      ((finalise repeatedNodes repeatedCalls false).refinalise false).WellFormed ∧
      ((finalise repeatedNodes repeatedCalls false).refinalise false).calls.map Call.ends =
        [(⟨"node2"⟩, ⟨"node1"⟩)] := by
  have hflags : ∀ flag ∈ [false, false], flag = false := by decide
  obtain ⟨hwell, -, -, -, -, -, -, -, hunpruned⟩ :=
    finished_after_any_history repeatedNodes repeatedCalls false [false]
  obtain ⟨-, hends, -⟩ := hunpruned hflags
  exact ⟨hflags, hwell, hends.trans (by decide)⟩

end Graph

end CallerGraph
