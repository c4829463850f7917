import CallerGraph.Graph.Tabled
import CallerGraph.Proofs.FirstAppearance
import CallerGraph.Proofs.WellFormed

/-!
# Tables that stay in step

The tables of a registry mirror the registry without tables when each of them
answers as that one does.  A registration can get them out of step in two ways,
by an identifier that the second table has no node for and by a number that it
has a node for already; neither can happen, since labels and numbers determine
each other.

With tables in step no identifier is passed over when the nodes are taken out
at the end.
-/

namespace CallerGraph

namespace Registry

variable {registry : Registry} {label other : Label} {entry : Bool} {id : NodeId} {node : Node}

/-- The node with an identifier is the node of the label that has it. -/
theorem Orderly.node?_eq_some_iff (h : registry.Orderly) :
    registry.node? id = some node ↔ ∃ label, registry.find? label = some node ∧ node.id = id := by
  have hwell : (Graph.mk registry.nodes []).WellFormed :=
    ⟨h.ids_nodup, List.nodup_nil, fun _ hcall => absurd hcall List.not_mem_nil⟩
  change (Graph.mk registry.nodes []).node? id = some node ↔ _
  rw [hwell.node?_eq_some_iff]
  constructor
  · rintro ⟨hnode, hid⟩
    obtain ⟨label, hfound⟩ := h.exists_find? hnode
    exact ⟨label, hfound, hid⟩
  · rintro ⟨label, hfound, hid⟩
    exact ⟨mem_nodes_of_find? hfound, hid⟩

theorem Orderly.node?_of_find? (h : registry.Orderly) (hfound : registry.find? label = some node) :
    registry.node? node.id = some node :=
  h.node?_eq_some_iff.2 ⟨label, hfound, rfl⟩

theorem idOf?_of_find? (hfound : registry.find? label = some node) :
    registry.idOf? label = some node.id := by
  rw [idOf?, hfound, Option.map_some]

/-- The next number is free. -/
theorem Orderly.node?_next (h : registry.Orderly) :
    registry.node? (.ofOrdinal (registry.size + 1)) = none := by
  rw [Option.eq_none_iff_forall_ne_some]
  intro node hnode
  obtain ⟨label, hfound, hid⟩ := h.node?_eq_some_iff.1 hnode
  obtain ⟨position, hposition⟩ := List.mem_iff_getElem?.1 (mem_entries_of_find? hfound)
  have hbelow : position < registry.size := (List.getElem?_eq_some_iff.1 hposition).1
  have hsame := NodeId.ofOrdinal_injective ((h.id_of_getElem? hposition).symm.trans hid)
  omega

theorem idOf?_register (registry : Registry) (label other : Label) (entry : Bool) :
    (registry.register label entry).2.idOf? other =
      if label = other then some (registry.register label entry).1.id
      else registry.idOf? other := by
  rw [idOf?, find?_register]
  by_cases heq : label = other
  · rw [if_pos heq, if_pos heq.symm, Option.map_some]
  · rw [if_neg heq, if_neg (Ne.symm heq), idOf?]

/-- One registration changes what is found under one identifier. -/
theorem Orderly.node?_register (h : registry.Orderly) :
    (registry.register label entry).2.node? id =
      if (registry.register label entry).1.id = id then some (registry.register label entry).1
      else registry.node? id := by
  have hafter := h.register label entry
  have hself : (registry.register label entry).2.find? label =
      some (registry.register label entry).1 := by
    rw [find?_register, if_pos rfl]
  apply Option.ext
  intro node
  rw [hafter.node?_eq_some_iff]
  by_cases hid : (registry.register label entry).1.id = id
  · rw [if_pos hid]
    constructor
    · rintro ⟨other, hfound, rfl⟩
      have hother := idOf?_of_find? hfound
      rw [← hid] at hother
      obtain rfl := hafter.idOf?_injective hother (idOf?_of_find? hself)
      exact hself.symm.trans hfound
    · intro hnode
      obtain rfl := Option.some.inj hnode
      exact ⟨label, hself, hid⟩
  · rw [if_neg hid, h.node?_eq_some_iff]
    constructor
    · rintro ⟨other, hfound, rfl⟩
      have hne : other ≠ label := by
        rintro rfl
        exact hid (congrArg Node.id (Option.some.inj (hself.symm.trans hfound)))
      rw [find?_register, if_neg hne] at hfound
      exact ⟨other, hfound, rfl⟩
    · rintro ⟨other, hfound, rfl⟩
      have hne : other ≠ label := by
        rintro rfl
        exact hid (id_register hfound)
      exact ⟨other, by rw [find?_register, if_neg hne, hfound], rfl⟩

end Registry

namespace TabledRegistry

variable {tabled : TabledRegistry} {registry : Registry} {label : Label} {entry : Bool}
  {id : NodeId} {node : Node}

/-- Every table answers as the registry does. -/
structure Mirrors (tabled : TabledRegistry) (registry : Registry) : Prop where
  idOf? : ∀ label, tabled.idOf? label = registry.idOf? label
  node? : ∀ id, tabled.node? id = registry.node? id
  order : tabled.order = registry.nodes.map Node.id
  palette : tabled.palette = registry.palette

theorem mirrors_fresh (source : ColorSource) : (fresh source).Mirrors (.fresh source) where
  idOf? label := by simp [TabledRegistry.idOf?, fresh, Registry.idOf?]
  node? id := by simp [TabledRegistry.node?, fresh, Registry.node?, Registry.fresh, Registry.nodes]
  order := rfl
  palette := rfl

theorem Mirrors.size_eq (h : tabled.Mirrors registry) : tabled.size = registry.size := by
  rw [size, h.order, List.length_map, Registry.nodes, List.length_map, Registry.size]

/-! ### Registering -/

theorem assign_of_known (hid : tabled.idOf? label = some id) :
    tabled.assign label = (id, tabled) := by
  rw [idOf?] at hid
  simp only [assign, hid]

theorem assign_of_new (hnone : tabled.idOf? label = none) :
    tabled.assign label = (.ofOrdinal (tabled.size + 1), { tabled with
      ids := tabled.ids.insert label (.ofOrdinal (tabled.size + 1))
      order := tabled.order ++ [.ofOrdinal (tabled.size + 1)] }) := by
  rw [idOf?] at hnone
  simp only [assign, hnone, size]

/-- A known label's node is put back, escalated if it is to be. -/
theorem register_of_known (hid : tabled.idOf? label = some id) (hnode : tabled.node? id = some node) :
    tabled.register label entry =
      (node.escalate entry, { tabled with nodes := tabled.nodes.insert id (node.escalate entry) }) := by
  rw [TabledRegistry.node?] at hnode
  simp only [register, assign_of_known hid, nodeFor, hnode]

/-- A new label gets the next number, and a node of its own if that number has
none. -/
theorem register_of_new (hid : tabled.idOf? label = none)
    (hnode : tabled.node? (.ofOrdinal (tabled.size + 1)) = none) (entry : Bool) :
    let id := NodeId.ofOrdinal (tabled.size + 1)
    let parts := LabelParts.ofLabel label.text
    let (color, palette) := tabled.palette.colorFor parts.className
    let node := Node.ofParts id parts color entry
    tabled.register label entry = (node,
      ⟨tabled.ids.insert label id, tabled.nodes.insert id node, tabled.order ++ [id], palette⟩) := by
  rw [TabledRegistry.node?] at hnode
  simp only [register, assign_of_new hid, nodeFor, hnode]
  rfl

/-- Putting the registered node under its identifier is what the second table
has to do, whether the label is new or not. -/
theorem Mirrors.getElem?_insert (h : tabled.Mirrors registry) (horderly : registry.Orderly)
    (label : Label) (entry : Bool) (id : NodeId) :
    (tabled.nodes.insert (registry.register label entry).1.id
      (registry.register label entry).1)[id]? = (registry.register label entry).2.node? id := by
  have hother : tabled.nodes[id]? = registry.node? id := h.node? id
  rw [Std.HashMap.getElem?_insert, horderly.node?_register, hother]
  simp only [beq_iff_eq]

/-- A known label is in both tables. -/
theorem Mirrors.known (h : tabled.Mirrors registry) (horderly : registry.Orderly)
    (hfound : registry.find? label = some node) :
    tabled.idOf? label = some node.id ∧ tabled.node? node.id = some node :=
  ⟨(h.idOf? label).trans (Registry.idOf?_of_find? hfound),
    (h.node? node.id).trans (horderly.node?_of_find? hfound)⟩

/-- A new label is in neither, and nothing stands under the next number. -/
theorem Mirrors.unknown (h : tabled.Mirrors registry) (horderly : registry.Orderly)
    (hfound : registry.find? label = none) :
    tabled.idOf? label = none ∧ tabled.node? (.ofOrdinal (tabled.size + 1)) = none := by
  constructor
  · rw [h.idOf?, Registry.idOf?, hfound, Option.map_none]
  · rw [h.node?, h.size_eq]
    exact horderly.node?_next

theorem Mirrors.register_known (h : tabled.Mirrors registry) (horderly : registry.Orderly)
    (hfound : registry.find? label = some node) (entry : Bool) :
    (tabled.register label entry).1 = (registry.register label entry).1 ∧
      (tabled.register label entry).2.Mirrors (registry.register label entry).2 := by
  obtain ⟨hid, hnode⟩ := h.known horderly hfound
  have hput := h.getElem?_insert horderly label entry
  have hids := fun other => Registry.idOf?_register registry label other entry
  rw [register_of_known hid hnode]
  rw [Registry.register_of_find?_eq_some hfound] at hput hids ⊢
  refine ⟨rfl, fun other => ?_, hput, ?_, h.palette⟩
  · rw [hids]
    by_cases heq : label = other
    · subst heq
      rw [if_pos rfl]
      exact hid
    · rw [if_neg heq]
      exact h.idOf? other
  · rw [Registry.ids_escalate]
    exact h.order

theorem Mirrors.register_new (h : tabled.Mirrors registry) (horderly : registry.Orderly)
    (hfound : registry.find? label = none) (entry : Bool) :
    (tabled.register label entry).1 = (registry.register label entry).1 ∧
      (tabled.register label entry).2.Mirrors (registry.register label entry).2 := by
  obtain ⟨hid, hnode⟩ := h.unknown horderly hfound
  have hput := h.getElem?_insert horderly label entry
  have hids := fun other => Registry.idOf?_register registry label other entry
  have hregister := register_of_new hid hnode entry
  simp only [h.palette, h.size_eq] at hregister
  rw [hregister]
  rw [Registry.register_of_find?_eq_none hfound] at hput hids ⊢
  refine ⟨rfl, fun other => ?_, hput, ?_, rfl⟩
  · have hother : tabled.ids[other]? = registry.idOf? other := h.idOf? other
    rw [hids, TabledRegistry.idOf?, Std.HashMap.getElem?_insert, hother]
    simp only [beq_iff_eq]
    rfl
  · simp [h.order, Registry.nodes, Registry.newNode]

/-- **Registering keeps the tables in step,** and gives the same node. -/
theorem Mirrors.register (h : tabled.Mirrors registry) (horderly : registry.Orderly)
    (label : Label) (entry : Bool) :
    (tabled.register label entry).1 = (registry.register label entry).1 ∧
      (tabled.register label entry).2.Mirrors (registry.register label entry).2 := by
  cases hfound : registry.find? label with
  | some node => exact h.register_known horderly hfound entry
  | none => exact h.register_new horderly hfound entry

/-- A node is made, and a warning due, for the same labels. -/
theorem Mirrors.notices (h : tabled.Mirrors registry) (horderly : registry.Orderly)
    (label : Label) : tabled.notices label = registry.notices label := by
  cases hfound : registry.find? label with
  | some node =>
      obtain ⟨hid, hnode⟩ := h.known horderly hfound
      rw [TabledRegistry.node?] at hnode
      simp [TabledRegistry.notices, Registry.notices, assign_of_known hid, hnode, hfound]
  | none =>
      obtain ⟨hid, hnode⟩ := h.unknown horderly hfound
      rw [TabledRegistry.node?] at hnode
      simp [TabledRegistry.notices, Registry.notices, assign_of_new hid, hnode, hfound]

/-- A colour that is asked for leaves the tables alone. -/
theorem Mirrors.colorFor (h : tabled.Mirrors registry) (className : String) :
    (tabled.colorFor className).1 = (registry.colorFor className).1 ∧
      (tabled.colorFor className).2.Mirrors (registry.colorFor className).2 := by
  have hcolor := congrArg (·.colorFor className) h.palette
  refine ⟨congrArg Prod.fst hcolor, h.idOf?, h.node?, h.order, congrArg Prod.snd hcolor⟩

/-! ### Taking the nodes out -/

/-- As long as no identifier comes twice, taking a node out does not keep a
later one from being found. -/
theorem takeNodes_eq_filterMap {ids : List NodeId} (hnodup : ids.Nodup)
    (nodes : Std.HashMap NodeId Node) : takeNodes nodes ids = ids.filterMap (nodes[·]?) := by
  induction ids generalizing nodes with
  | nil => rfl
  | cons id ids ih =>
      obtain ⟨hnew, hrest⟩ := List.nodup_cons.1 hnodup
      cases hfound : nodes[id]? with
      | none =>
          rw [List.filterMap_cons_none hfound, ← ih hrest]
          simp only [takeNodes, hfound]
      | some node =>
          have hlater : ids.filterMap ((nodes.erase id)[·]?) = ids.filterMap (nodes[·]?) := by
            apply List.filterMap_congr
            intro other hother
            have hne : id ≠ other := fun heq => hnew (heq ▸ hother)
            rw [Std.HashMap.getElem?_erase]
            simp [hne]
          rw [List.filterMap_cons_some hfound, ← hlater, ← ih hrest]
          simp only [takeNodes, hfound]

/-- **No node is lost.** -/
theorem Mirrors.intoNodes (h : tabled.Mirrors registry) (horderly : registry.Orderly) :
    tabled.intoNodes = registry.nodes := by
  have hnodup : tabled.order.Nodup := h.order ▸ horderly.ids_nodup
  have hall : ∀ node ∈ registry.nodes, registry.node? node.id = some node := by
    intro node hnode
    obtain ⟨label, hfound⟩ := horderly.exists_find? hnode
    exact horderly.node?_of_find? hfound
  calc tabled.intoNodes
      = tabled.order.filterMap tabled.node? := takeNodes_eq_filterMap hnodup tabled.nodes
    _ = (registry.nodes.map Node.id).filterMap registry.node? := by
        rw [h.order, funext h.node?]
    _ = registry.nodes.filterMap some := by
        rw [List.filterMap_map]
        exact List.filterMap_congr hall
    _ = registry.nodes := List.filterMap_some

end TabledRegistry

end CallerGraph
