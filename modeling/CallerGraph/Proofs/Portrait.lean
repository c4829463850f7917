import CallerGraph.Proofs.Finishing

/-!
# Portraits of graphs

The portrait of a graph is what is left of it when each node is told by its
label: which nodes there are, without their identifiers and colours, and
which calls join them.  It knows nothing of the order of nodes and calls.

A round of pruning and the roles of nodes can be read off the portrait, since
all that they ask of the calls is whether a method has any.  So graphs with
the same portrait have it still when they are finished, although rounds may
take their nodes away in another order.
-/

namespace CallerGraph

namespace Role

variable {callers callees : Nat}

theorem root_eq_classify_iff : root = classify callers callees ↔ callees = 0 := by
  grind [classify]

theorem leaf_eq_classify_iff : leaf = classify callers callees ↔ callees ≠ 0 ∧ callers = 0 := by
  grind [classify]

theorem intermediate_eq_classify_iff :
    intermediate = classify callers callees ↔ callees ≠ 0 ∧ callers ≠ 0 := by
  grind [classify]

end Role

/-- The node without its identifier and its colour. -/
def Node.blank (node : Node) : Node :=
  { node with id := default, classColor := "" }

/-- What a graph shows: which label has which node, and which calls join
which labels. -/
@[ext]
structure Portrait where
  node : Label → Node → Prop
  call : Label → Label → Bool → Prop

namespace Portrait

/-- The label is of an entry that nobody calls. -/
def Uncalled (portrait : Portrait) (label : Label) : Prop :=
  (∃ face, portrait.node label face ∧ face.isEntry = true) ∧
    ∀ caller recursive, ¬ portrait.call caller label recursive

/-- A round of pruning. -/
def pruneRound (portrait : Portrait) : Portrait where
  node label face := portrait.node label face ∧ ¬ portrait.Uncalled label
  call caller method recursive := portrait.call caller method recursive ∧
    ¬ portrait.Uncalled caller ∧ ¬ portrait.Uncalled method

/-- The role that the calls give to a label. -/
def Plays (portrait : Portrait) (label : Label) : Role → Prop
  | .root => ∀ method recursive, ¬ portrait.call label method recursive
  | .leaf => (∃ method recursive, portrait.call label method recursive) ∧
      ∀ caller recursive, ¬ portrait.call caller label recursive
  | .intermediate => (∃ method recursive, portrait.call label method recursive) ∧
      ∃ caller recursive, portrait.call caller label recursive

/-- Every node in the role that its calls give it. -/
def classify (portrait : Portrait) : Portrait where
  node label face := portrait.Plays label face.role ∧
    ∃ before, portrait.node label before ∧ face = { before with role := face.role }
  call := portrait.call

end Portrait

namespace Graph

variable {names : Label → Option NodeId} {graph : Graph} {label : Label} {id : NodeId}

/-- What a graph shows under the given names. -/
def portrait (names : Label → Option NodeId) (graph : Graph) : Portrait where
  node label face := ∃ node ∈ graph.nodes, names label = some node.id ∧ face = node.blank
  call caller method recursive := ∃ call ∈ graph.calls,
    names caller = some call.source ∧ names method = some call.target ∧
      call.recursive = recursive

theorem inDegree_eq_zero_iff : graph.inDegree id = 0 ↔ ∀ call ∈ graph.calls, call.target ≠ id := by
  simp [inDegree, List.countP_eq_zero]

theorem outDegree_eq_zero_iff :
    graph.outDegree id = 0 ↔ ∀ call ∈ graph.calls, call.source ≠ id := by
  simp [outDegree, List.countP_eq_zero]

/-- A node has no callers when its portrait shows none. -/
theorem Labelled.inDegree_eq_zero_iff (h : graph.Labelled names) (hname : names label = some id) :
    graph.inDegree id = 0 ↔
      ∀ caller recursive, ¬ (graph.portrait names).call caller label recursive := by
  rw [Graph.inDegree_eq_zero_iff]
  constructor
  · intro hnone caller recursive hshown
    obtain ⟨call, hcall, -, htarget, -⟩ := hshown
    exact hnone call hcall (Option.some.inj (htarget.symm.trans hname))
  · intro hnone call hcall htarget
    obtain ⟨caller, hcaller⟩ := h.exists_name (h.joins call hcall).1
    exact hnone caller call.recursive ⟨call, hcall, hcaller, htarget ▸ hname, rfl⟩

/-- A node calls nothing when its portrait shows no call from it. -/
theorem Labelled.outDegree_eq_zero_iff (h : graph.Labelled names) (hname : names label = some id) :
    graph.outDegree id = 0 ↔
      ∀ method recursive, ¬ (graph.portrait names).call label method recursive := by
  rw [Graph.outDegree_eq_zero_iff]
  constructor
  · intro hnone method recursive hshown
    obtain ⟨call, hcall, hsource, -, -⟩ := hshown
    exact hnone call hcall (Option.some.inj (hsource.symm.trans hname))
  · intro hnone call hcall hsource
    obtain ⟨method, hmethod⟩ := h.exists_name (h.joins call hcall).2
    exact hnone method call.recursive ⟨call, hcall, hsource ▸ hname, hmethod, rfl⟩

/-- The entries that nobody calls are those that the portrait shows so. -/
theorem Labelled.mem_uncalledEntries_iff (h : graph.Labelled names)
    (hname : names label = some id) :
    id ∈ graph.uncalledEntries ↔ (graph.portrait names).Uncalled label := by
  simp only [uncalledEntries, List.mem_map, List.mem_filter, Bool.and_eq_true, beq_iff_eq]
  constructor
  · intro hmem
    obtain ⟨node, ⟨hnode, hentry, hnone⟩, rfl⟩ := hmem
    exact ⟨⟨node.blank, ⟨node, hnode, hname, rfl⟩, hentry⟩,
      (h.inDegree_eq_zero_iff hname).1 hnone⟩
  · intro huncalled
    obtain ⟨⟨_, ⟨node, hnode, hid, rfl⟩, hentry⟩, hnone⟩ := huncalled
    obtain rfl : id = node.id := Option.some.inj (hname.symm.trans hid)
    exact ⟨node, ⟨hnode, hentry, (h.inDegree_eq_zero_iff hname).2 hnone⟩, rfl⟩

/-- A label that the portrait shows as uncalled has a node. -/
theorem Labelled.uncalledEntries_eq_nil_iff (h : graph.Labelled names) :
    graph.uncalledEntries = [] ↔ ∀ label, ¬ (graph.portrait names).Uncalled label := by
  rw [List.eq_nil_iff_forall_not_mem]
  constructor
  · intro hnone label huncalled
    obtain ⟨node, -, hname, -⟩ := huncalled.1.choose_spec.1
    exact hnone node.id ((h.mem_uncalledEntries_iff hname).2 huncalled)
  · intro hnone id hmem
    obtain ⟨node, hfiltered, rfl⟩ := List.mem_map.1 hmem
    obtain ⟨label, hname⟩ := h.named node (List.mem_filter.1 hfiltered).1
    exact hnone label ((h.mem_uncalledEntries_iff hname).1 hmem)

/-- **A round of pruning can be read off the portrait.** -/
theorem Labelled.portrait_pruneRound (h : graph.Labelled names) :
    graph.pruneRound.portrait names = (graph.portrait names).pruneRound := by
  apply Portrait.ext
  · funext label face
    apply propext
    constructor
    · intro hshown
      obtain ⟨node, hnode, hname, rfl⟩ := hshown
      obtain ⟨hbefore, hkept⟩ := mem_nodes_without.1 hnode
      exact ⟨⟨node, hbefore, hname, rfl⟩, mt (h.mem_uncalledEntries_iff hname).2 hkept⟩
    · intro hshown
      obtain ⟨⟨node, hnode, hname, rfl⟩, hkept⟩ := hshown
      have hstays := mem_nodes_without.2 ⟨hnode, mt (h.mem_uncalledEntries_iff hname).1 hkept⟩
      exact ⟨node, hstays, hname, rfl⟩
  · funext caller method recursive
    apply propext
    constructor
    · intro hshown
      obtain ⟨call, hcall, hcaller, hmethod, rfl⟩ := hshown
      obtain ⟨hbefore, hsource, htarget⟩ := mem_calls_without.1 hcall
      exact ⟨⟨call, hbefore, hcaller, hmethod, rfl⟩,
        mt (h.mem_uncalledEntries_iff hcaller).2 hsource,
        mt (h.mem_uncalledEntries_iff hmethod).2 htarget⟩
    · intro hshown
      obtain ⟨⟨call, hcall, hcaller, hmethod, rfl⟩, hsource, htarget⟩ := hshown
      have hstays := mem_calls_without.2 ⟨hcall,
        mt (h.mem_uncalledEntries_iff hcaller).1 hsource,
        mt (h.mem_uncalledEntries_iff hmethod).1 htarget⟩
      exact ⟨call, hstays, hcaller, hmethod, rfl⟩

/-- The role that a node is given is the one that it plays in the portrait. -/
theorem Labelled.plays_iff (h : graph.Labelled names) (hname : names label = some id)
    {role : Role} : (graph.portrait names).Plays label role ↔
      role = .classify (graph.inDegree id) (graph.outDegree id) := by
  have hcallers : (∃ caller recursive, (graph.portrait names).call caller label recursive) ↔
      graph.inDegree id ≠ 0 := by
    rw [ne_eq, h.inDegree_eq_zero_iff hname]
    push Not
    rfl
  have hcallees : (∃ method recursive, (graph.portrait names).call label method recursive) ↔
      graph.outDegree id ≠ 0 := by
    rw [ne_eq, h.outDegree_eq_zero_iff hname]
    push Not
    rfl
  cases role with
  | root => rw [Role.root_eq_classify_iff, h.outDegree_eq_zero_iff hname, Portrait.Plays]
  | leaf =>
      rw [Role.leaf_eq_classify_iff, ← hcallees, h.inDegree_eq_zero_iff hname, Portrait.Plays]
  | intermediate =>
      rw [Role.intermediate_eq_classify_iff, ← hcallees, ← hcallers, Portrait.Plays]

/-- **Roles can be read off the portrait.** -/
theorem Labelled.portrait_classify (h : graph.Labelled names) :
    graph.classify.portrait names = (graph.portrait names).classify := by
  apply Portrait.ext
  · funext label face
    apply propext
    constructor
    · intro hshown
      obtain ⟨node, hnode, hname, rfl⟩ := hshown
      obtain ⟨before, hbefore, rfl⟩ := List.mem_map.1 hnode
      exact ⟨(h.plays_iff hname).2 rfl, before.blank, ⟨before, hbefore, hname, rfl⟩, rfl⟩
    · intro hshown
      obtain ⟨hrole, _, ⟨before, hbefore, hname, rfl⟩, hface⟩ := hshown
      refine ⟨_, List.mem_map_of_mem hbefore, hname, ?_⟩
      rw [hface, (h.plays_iff hname).1 hrole]
      rfl
  · rfl

/-- **Pruning can be read off the portrait.**  Two graphs with the same
portrait go through the same number of rounds, and have the same portrait
after each. -/
theorem portrait_prune_congr {others : Label → Option NodeId} {other : Graph}
    (h : graph.Labelled names) (hother : other.Labelled others)
    (hsame : graph.portrait names = other.portrait others) :
    graph.prune.portrait names = other.prune.portrait others := by
  induction graph using prune.induct generalizing other with
  | case1 graph hnone =>
      have hothernone : other.uncalledEntries = [] := by
        rw [hother.uncalledEntries_eq_nil_iff, ← hsame]
        exact h.uncalledEntries_eq_nil_iff.1 hnone
      rw [prune_of_eq_nil hnone, prune_of_eq_nil hothernone, hsame]
  | case2 graph hsome ih =>
      have hothersome : other.uncalledEntries ≠ [] := by
        rw [ne_eq, hother.uncalledEntries_eq_nil_iff, ← hsame]
        exact mt h.uncalledEntries_eq_nil_iff.2 hsome
      rw [prune_of_ne_nil hsome, prune_of_ne_nil hothersome]
      apply ih h.pruneRound hother.pruneRound
      rw [h.portrait_pruneRound, hother.portrait_pruneRound, hsame]

end Graph

namespace Draft

/-- **The portrait of a draft decides that of its finished graph.** -/
theorem portrait_toGraph_congr {names others : Label → Option NodeId} {draft other : Draft}
    (h : draft.parts.Labelled names) (hother : other.parts.Labelled others)
    (hsame : draft.parts.portrait names = other.parts.portrait others) (pruned : Bool) :
    (draft.toGraph pruned).portrait names = (other.toGraph pruned).portrait others := by
  rw [toGraph_of_labelled h, toGraph_of_labelled hother]
  cases pruned with
  | true =>
      simp only [if_true]
      rw [h.prune.portrait_classify, hother.prune.portrait_classify,
        Graph.portrait_prune_congr h hother hsame]
  | false =>
      simp only [Bool.false_eq_true, if_false]
      rw [h.portrait_classify, hother.portrait_classify, hsame]

variable {draft : Draft} {entries : List Label} {label : Label} {face : Node}

/-- What a tidy draft shows of its methods: the parts of each label, and
whether it is an entry. -/
theorem Tidy.node_portrait_iff (h : draft.Tidy entries) :
    (draft.parts.portrait draft.registry.idOf?).node label face ↔
      label ∈ draft.registry.labels ∧
        face = .ofParts default (LabelParts.ofLabel label.text) "" (entries.contains label) := by
  have hface : ∀ node, draft.registry.find? label = some node →
      node.blank =
        .ofParts default (LabelParts.ofLabel label.text) "" (entries.contains label) := by
    intro node hfound
    have hnode : node = _ := h.orderly.described label node hfound
    rw [← h.flagged label node hfound, hnode]
    rfl
  constructor
  · intro hshown
    obtain ⟨node, hnode, hname, rfl⟩ := hshown
    obtain ⟨other, hfound⟩ := h.orderly.exists_find? hnode
    have hother : draft.registry.idOf? other = some _ := congrArg (Option.map Node.id) hfound
    obtain rfl := h.orderly.idOf?_injective hname hother
    exact ⟨Registry.exists_find?_iff.1 ⟨_, hfound⟩, hface _ hfound⟩
  · intro hshown
    obtain ⟨hlabel, rfl⟩ := hshown
    obtain ⟨node, hfound⟩ := Registry.exists_find?_iff.2 hlabel
    exact ⟨node, Registry.mem_nodes_of_find? hfound,
      congrArg (Option.map Node.id) hfound, (hface node hfound).symm⟩

/-- What a draft shows of its calls. -/
theorem call_portrait_iff {caller method : Label} {recursive : Bool} :
    (draft.parts.portrait draft.registry.idOf?).call caller method recursive ↔
      draft.HasCall caller method recursive := by
  constructor
  · intro hshown
    obtain ⟨call, hcall, hcaller, hmethod, rfl⟩ := hshown
    exact ⟨call.source, call.target, hcaller, hmethod, hcall⟩
  · intro hhas
    obtain ⟨source, target, hcaller, hmethod, hcall⟩ := hhas
    exact ⟨_, hcall, hcaller, hmethod, rfl⟩

end Draft

end CallerGraph
