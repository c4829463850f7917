import CallerGraph.Proofs.Finishing

/-!
# Well-formed graphs

A graph is well formed when no identifier and no pair of methods comes twice
in it and its calls join nodes of the graph.  Whatever nodes and calls are
put together, with identifiers that come again and calls that lead nowhere,
what comes out is well formed: of each identifier the first node is kept.

Nodes of a well-formed graph go by the texts of their identifiers, so that
everything said about labelled graphs holds of it.
-/

namespace CallerGraph

/-- Calls can be sorted out by their pairs before or after they are settled. -/
theorem CallSet.settled_filter {calls : List Call} {call : Call} {keeps : Call → Bool}
    (hpairs : ∀ call other : Call, call.ends = other.ends → keeps call = keeps other) :
    Settled (calls.filter keeps) call ↔ keeps call = true ∧ Settled calls call := by
  simp only [Settled, List.mem_filter]
  constructor
  · intro h
    obtain ⟨⟨added, ⟨hadded, hkept⟩, hends⟩, hrecursive⟩ := h
    have hkeeps : keeps call = true := hpairs _ _ hends ▸ hkept
    refine ⟨hkeeps, ⟨added, hadded, hends⟩, hrecursive.trans ?_⟩
    constructor
    · exact fun hall other hother heq => hall other ⟨hother, hpairs _ _ heq ▸ hkeeps⟩ heq
    · exact fun hall other hother heq => hall other hother.1 heq
  · intro h
    obtain ⟨hkeeps, ⟨added, hadded, hends⟩, hrecursive⟩ := h
    refine ⟨⟨added, ⟨hadded, hpairs _ _ hends ▸ hkeeps⟩, hends⟩, hrecursive.trans ?_⟩
    constructor
    · exact fun hall other hother heq => hall other hother.1 heq
    · exact fun hall other hother heq => hall other ⟨hother, hpairs _ _ heq ▸ hkeeps⟩ heq

namespace Graph

/-- No identifier and no pair comes twice, and calls join nodes. -/
structure WellFormed (graph : Graph) : Prop where
  ids_nodup : (graph.nodes.map Node.id).Nodup
  ends_nodup : (graph.calls.map Call.ends).Nodup
  joins : ∀ call ∈ graph.calls,
    call.source ∈ graph.nodes.map Node.id ∧ call.target ∈ graph.nodes.map Node.id

/-- The identifier that is the text of a label. -/
def ownName (label : Label) : Option NodeId :=
  some ⟨label.text⟩

variable {graph : Graph} {nodes : List Node} {calls : List Call}

theorem wellFormed_iff_labelled : graph.WellFormed ↔ graph.Labelled ownName := by
  constructor
  · intro h
    refine ⟨h.ids_nodup, h.ends_nodup, fun node _ => ⟨⟨node.id.text⟩, rfl⟩, ?_, h.joins⟩
    intro label other id hlabel hother
    have hsame : (⟨label.text⟩ : NodeId) = ⟨other.text⟩ :=
      Option.some.inj (hlabel.trans hother.symm)
    cases label
    cases other
    cases hsame
    rfl
  · exact fun h => ⟨h.ids_nodup, h.ends_nodup, h.joins⟩

theorem WellFormed.pruneRound (h : graph.WellFormed) : graph.pruneRound.WellFormed :=
  wellFormed_iff_labelled.2 (wellFormed_iff_labelled.1 h).pruneRound

theorem WellFormed.prune (h : graph.WellFormed) : graph.prune.WellFormed :=
  wellFormed_iff_labelled.2 (wellFormed_iff_labelled.1 h).prune

theorem WellFormed.classify (h : graph.WellFormed) : graph.classify.WellFormed :=
  wellFormed_iff_labelled.2 (wellFormed_iff_labelled.1 h).classify

/-- A well-formed graph is put together as it is. -/
theorem WellFormed.ofParts_eq (h : graph.WellFormed) : ofParts graph.nodes graph.calls = graph :=
  (wellFormed_iff_labelled.1 h).ofParts_eq

/-- Nodes of a well-formed graph are told apart by their identifiers. -/
theorem WellFormed.eq_of_id_eq (h : graph.WellFormed) {node other : Node}
    (hnode : node ∈ graph.nodes) (hother : other ∈ graph.nodes) (hid : node.id = other.id) :
    node = other :=
  List.inj_on_of_nodup_map h.ids_nodup hnode hother hid

/-- The node with an identifier is the only one with it. -/
theorem WellFormed.node?_eq_some_iff (h : graph.WellFormed) {id : NodeId} {node : Node} :
    graph.node? id = some node ↔ node ∈ graph.nodes ∧ node.id = id := by
  constructor
  · intro hfound
    exact ⟨List.mem_of_find?_eq_some hfound, by simpa using List.find?_some hfound⟩
  · rintro ⟨hnode, rfl⟩
    have hsome : (graph.node? node.id).isSome = true :=
      List.find?_isSome.2 ⟨node, hnode, beq_self_eq_true node.id⟩
    obtain ⟨found, hfound⟩ := Option.isSome_iff_exists.1 hsome
    have hid : found.id = node.id := by simpa using List.find?_some hfound
    rw [hfound, h.eq_of_id_eq (List.mem_of_find?_eq_some hfound) hnode hid]

theorem containsNode_iff {id : NodeId} :
    graph.containsNode id = true ↔ id ∈ graph.nodes.map Node.id := by
  simp [containsNode]

theorem containsNode_of_mem {node : Node} (h : node ∈ graph.nodes) :
    graph.containsNode node.id = true :=
  containsNode_iff.2 (List.mem_map_of_mem h)

theorem firstById_sublist (nodes : List Node) : (firstById nodes).Sublist nodes := by
  induction nodes with
  | nil => exact List.Sublist.slnil
  | cons node nodes ih => exact (List.filter_sublist.trans ih).cons_cons node

/-- Each identifier that occurs keeps a node. -/
theorem mem_ids_firstById {id : NodeId} :
    id ∈ (firstById nodes).map Node.id ↔ id ∈ nodes.map Node.id := by
  induction nodes with
  | nil => rfl
  | cons node nodes ih =>
      by_cases hid : id = node.id
      · simp [firstById, hid]
      · simp only [List.mem_map] at ih
        simp only [firstById, List.map_cons, List.mem_cons, hid, false_or, List.mem_map,
          List.mem_filter, bne_iff_ne, ne_eq]
        rw [← ih]
        constructor
        · rintro ⟨other, ⟨hother, -⟩, rfl⟩
          exact ⟨other, hother, rfl⟩
        · rintro ⟨other, hother, rfl⟩
          exact ⟨other, ⟨hother, hid⟩, rfl⟩

theorem nodup_ids_firstById (nodes : List Node) : ((firstById nodes).map Node.id).Nodup := by
  induction nodes with
  | nil => exact List.nodup_nil
  | cons node nodes ih =>
      rw [firstById, List.map_cons, List.nodup_cons]
      refine ⟨?_, ih.sublist (List.filter_sublist.map _)⟩
      simp

/-- The node that is kept for an identifier is the first one with it. -/
theorem mem_firstById {node : Node} :
    node ∈ firstById nodes ↔ nodes.find? (·.id == node.id) = some node := by
  induction nodes with
  | nil => simp [firstById]
  | cons first nodes ih =>
      rw [firstById, List.mem_cons, List.mem_filter, ih, List.find?_cons]
      by_cases hid : first.id = node.id
      · simp [hid, eq_comm]
      · have hne : node ≠ first := fun heq => hid (heq ▸ rfl)
        have hother : (node.id != first.id) = true := bne_iff_ne.2 (Ne.symm hid)
        have hskip : (first.id == node.id) = false := beq_false_of_ne hid
        simp [hne, hother, hskip]

/-- The calls that are kept: between nodes that are there, one for each pair. -/
theorem mem_calls_ofParts {call : Call} :
    call ∈ (ofParts nodes calls).calls ↔
      (call.source ∈ nodes.map Node.id ∧ call.target ∈ nodes.map Node.id) ∧
        CallSet.Settled calls call := by
  have hknown : ∀ id, (firstById nodes).any (·.id == id) = true ↔ id ∈ nodes.map Node.id := by
    intro id
    rw [← mem_ids_firstById]
    simp
  rw [ofParts, CallSet.mem_ofList, CallSet.settled_filter, Bool.and_eq_true, hknown, hknown]
  intro call other hends
  obtain ⟨hsource, htarget⟩ := Prod.mk.inj hends
  rw [hsource, htarget]

theorem wellFormed_ofParts (nodes : List Node) (calls : List Call) :
    (ofParts nodes calls).WellFormed where
  ids_nodup := nodup_ids_firstById nodes
  ends_nodup := CallSet.nodup_ends_ofList _
  joins call hcall := by
    obtain ⟨⟨hsource, htarget⟩, -⟩ := mem_calls_ofParts.1 hcall
    exact ⟨mem_ids_firstById.2 hsource, mem_ids_firstById.2 htarget⟩

end Graph

end CallerGraph
