import CallerGraph.Graph.Registry
import Mathlib.Data.List.Nodup
import Mathlib.Data.List.Range

/-!
# What registering does

A registry answers a label with a node.  `find?_register` says all there is
to say about one registration: the label that is registered gets the node
that was answered, and every other label keeps what it had.

`Registry.Orderly` holds of a registry without labels and survives every
registration: no label occurs twice, identifiers are numbered from 1 in the
order of the labels, and a node describes its label.  It follows that labels
and identifiers determine each other.
-/

namespace CallerGraph

/-- Identifiers count without repetition: the digits behind the common text
can be read back. -/
theorem NodeId.ofOrdinal_injective : Function.Injective NodeId.ofOrdinal := by
  intro a b h
  have htext := congrArg (fun id => id.text.toList) h
  simp only [NodeId.ofOrdinal, String.toList_append, List.append_cancel_left_eq] at htext
  have hvalue := congrArg (fun digits => Nat.ofDigitChars 10 digits 0) htext
  simpa using hvalue

namespace Node

@[simp] theorem id_escalate (entry : Bool) (node : Node) : (node.escalate entry).id = node.id := rfl

@[simp] theorem isEntry_escalate (entry : Bool) (node : Node) :
    (node.escalate entry).isEntry = (node.isEntry || entry) := rfl

/-- Escalation that the node does not need changes nothing. -/
theorem escalate_of_imp {entry : Bool} {node : Node} (h : entry = true → node.isEntry = true) :
    node.escalate entry = node := by
  cases node
  simpa [escalate] using h

@[simp] theorem id_ofParts (id : NodeId) (parts : LabelParts) (color : String) (entry : Bool) :
    (Node.ofParts id parts color entry).id = id := rfl

@[simp] theorem isEntry_ofParts (id : NodeId) (parts : LabelParts) (color : String) (entry : Bool) :
    (Node.ofParts id parts color entry).isEntry = entry := rfl

/-- Does the node tell of its label, apart from its number and colour? -/
def Describes (node : Node) (label : Label) : Prop :=
  node = .ofParts node.id (LabelParts.ofLabel label.text) node.classColor node.isEntry

theorem Describes.escalate {node : Node} {label : Label} (h : node.Describes label)
    (entry : Bool) : (node.escalate entry).Describes label := by
  unfold Describes at h ⊢
  rw [h]
  rfl

end Node

namespace Registry

variable {registry : Registry} {label other : Label} {entry : Bool}

/-- The labels in the order in which they came. -/
def labels (registry : Registry) : List Label :=
  registry.entries.map (·.1)

/-- The registry with the nodes of one label escalated. -/
def escalate (registry : Registry) (label : Label) (entry : Bool) : Registry :=
  { registry with entries := registry.entries.map fun known =>
      if known.1 = label then (known.1, known.2.escalate entry) else known }

theorem register_of_find?_eq_some {node : Node} (h : registry.find? label = some node) :
    registry.register label entry = (node.escalate entry, registry.escalate label entry) := by
  simp only [register, h, escalate]

theorem register_of_find?_eq_none (h : registry.find? label = none) :
    registry.register label entry =
      ((registry.newNode label entry).1,
        ⟨registry.entries ++ [(label, (registry.newNode label entry).1)],
          (registry.newNode label entry).2⟩) := by
  simp only [register, h]

/-- Escalation that no node of the label needs changes nothing. -/
theorem escalate_of_forall (h : ∀ known ∈ registry.entries,
    known.1 = label → entry = true → known.2.isEntry = true) :
    registry.escalate label entry = registry := by
  have hentries : (registry.entries.map fun known =>
      if known.1 = label then (known.1, known.2.escalate entry) else known) =
      registry.entries.map id := by
    apply List.map_congr_left
    intro known hmem
    split
    case isTrue hlabel => rw [Node.escalate_of_imp (h known hmem hlabel), id]
    case isFalse => rfl
  rw [escalate, hentries, List.map_id]

@[simp] theorem labels_escalate : (registry.escalate label entry).labels = registry.labels := by
  simp only [labels, escalate, List.map_map]
  apply List.map_congr_left
  intro known _
  simp only [Function.comp]
  split <;> rfl

@[simp] theorem ids_escalate :
    (registry.escalate label entry).nodes.map Node.id = registry.nodes.map Node.id := by
  simp only [nodes, escalate, List.map_map]
  apply List.map_congr_left
  intro known _
  simp only [Function.comp]
  split <;> rfl

theorem find?_eq_none_iff : registry.find? label = none ↔ label ∉ registry.labels := by
  simp only [find?, labels, Option.map_eq_none_iff, List.find?_eq_none, List.mem_map, beq_iff_eq]
  grind

theorem exists_find?_iff :
    (∃ node, registry.find? label = some node) ↔ label ∈ registry.labels := by
  rw [← Option.isSome_iff_exists, ← Option.ne_none_iff_isSome, ne_eq, find?_eq_none_iff, not_not]

theorem mem_entries_of_find? {node : Node} (h : registry.find? label = some node) :
    (label, node) ∈ registry.entries := by
  obtain ⟨known, hfound, rfl⟩ := Option.map_eq_some_iff.1 h
  have hlabel := List.find?_some hfound
  exact (beq_iff_eq.1 hlabel) ▸ List.mem_of_find?_eq_some hfound

theorem mem_nodes_of_find? {node : Node} (h : registry.find? label = some node) :
    node ∈ registry.nodes :=
  List.mem_map_of_mem (mem_entries_of_find? h)

/-- Without repeated labels a registry is the function that it looks like. -/
theorem find?_eq_some_iff (hnodup : registry.labels.Nodup) {node : Node} :
    registry.find? label = some node ↔ (label, node) ∈ registry.entries := by
  refine ⟨mem_entries_of_find?, fun hmem => ?_⟩
  obtain ⟨found, hfound⟩ := exists_find?_iff.2 (List.mem_map_of_mem (f := (·.1)) hmem)
  have heq : (label, found) = (label, node) :=
    List.inj_on_of_nodup_map hnodup (mem_entries_of_find? hfound) hmem rfl
  rw [hfound, (Prod.mk.inj heq).2]

theorem find?_escalate :
    (registry.escalate label entry).find? other =
      (registry.find? other).map fun node =>
        if other = label then node.escalate entry else node := by
  simp only [find?, escalate, List.find?_map, Option.map_map]
  have hkey : ((fun known : Label × Node => known.1 == other) ∘ fun known =>
      if known.1 = label then (known.1, known.2.escalate entry) else known) =
      fun known => known.1 == other := by
    funext known
    simp only [Function.comp]
    split <;> rfl
  rw [hkey]
  cases hfound : registry.entries.find? (·.1 == other) with
  | none => rfl
  | some known =>
      have hlabel : known.1 = other := beq_iff_eq.1 (List.find?_some hfound :)
      simp only [Option.map_some, Function.comp, hlabel]
      split <;> rfl

/-- **One registration.**  The label gets the node that is answered, and
every other label keeps what it had. -/
theorem find?_register :
    (registry.register label entry).2.find? other =
      if other = label then some (registry.register label entry).1 else registry.find? other := by
  cases hfound : registry.find? label with
  | some node =>
      rw [register_of_find?_eq_some hfound, find?_escalate]
      by_cases heq : other = label
      · simp [heq, hfound]
      · simp [heq]
  | none =>
      rw [register_of_find?_eq_none hfound]
      by_cases heq : other = label
      · subst heq
        have hnone : registry.entries.find? (·.1 == other) = none := by
          simpa [find?] using hfound
        simp [find?, List.find?_append, hnone]
      · have hne : (label == other) = false := by simpa using Ne.symm heq
        simp [find?, List.find?_append, heq, hne]

theorem labels_register :
    (registry.register label entry).2.labels =
      if label ∈ registry.labels then registry.labels else registry.labels ++ [label] := by
  cases hfound : registry.find? label with
  | some node =>
      rw [register_of_find?_eq_some hfound, if_pos (exists_find?_iff.1 ⟨node, hfound⟩),
        labels_escalate]
  | none =>
      rw [register_of_find?_eq_none hfound, if_neg (find?_eq_none_iff.1 hfound)]
      simp [labels]

theorem mem_labels_register :
    other ∈ (registry.register label entry).2.labels ↔ other = label ∨ other ∈ registry.labels := by
  rw [labels_register]
  by_cases hknown : label ∈ registry.labels
  · rw [if_pos hknown]
    constructor
    · exact Or.inr
    · intro h
      rcases h with rfl | hother
      · exact hknown
      · exact hother
  · rw [if_neg hknown, List.mem_append, List.mem_singleton, or_comm]

@[simp] theorem find?_fresh (source : ColorSource) : (fresh source).find? label = none := rfl

/-- The answer of a registration is a node of the label. -/
theorem id_register {node : Node} (h : registry.find? label = some node) :
    (registry.register label entry).1.id = node.id := by
  rw [register_of_find?_eq_some h, Node.id_escalate]

/-- Once a label has an identifier it keeps it. -/
theorem idOf?_register_of_eq_some {id : NodeId} (h : registry.idOf? other = some id) :
    (registry.register label entry).2.idOf? other = some id := by
  obtain ⟨node, hfound, rfl⟩ := Option.map_eq_some_iff.1 h
  unfold idOf?
  rw [find?_register]
  by_cases heq : other = label
  · subst heq
    rw [if_pos rfl, Option.map_some, id_register hfound]
  · rw [if_neg heq, hfound, Option.map_some]

@[simp] theorem idOf?_register_self :
    (registry.register label entry).2.idOf? label =
      some (registry.register label entry).1.id := by
  rw [idOf?, find?_register, if_pos rfl, Option.map_some]

theorem exists_idOf?_iff : (∃ id, registry.idOf? label = some id) ↔ label ∈ registry.labels := by
  rw [← exists_find?_iff]
  simp [idOf?]

/-- There is nothing to tell about a known label. -/
theorem notices_of_eq_some {id : NodeId} (h : registry.idOf? label = some id) : registry.notices label = [] := by
  obtain ⟨node, hnode, -⟩ := Option.map_eq_some_iff.1 h
  simp [notices, hnode]

/-- Labels do not repeat, identifiers count them, and nodes describe them. -/
structure Orderly (registry : Registry) : Prop where
  labels_nodup : registry.labels.Nodup
  numbered : registry.nodes.map Node.id =
    (List.range registry.size).map fun position => .ofOrdinal (position + 1)
  described : ∀ label node, registry.find? label = some node → node.Describes label

theorem orderly_fresh (source : ColorSource) : (fresh source).Orderly where
  labels_nodup := List.nodup_nil
  numbered := rfl
  described label node h := by simp at h

theorem Orderly.register (h : registry.Orderly) (label : Label) (entry : Bool) :
    (registry.register label entry).2.Orderly where
  labels_nodup := by
    rw [labels_register]
    split
    case isTrue => exact h.labels_nodup
    case isFalse hnew => exact List.nodup_append_comm.1 (h.labels_nodup.cons hnew)
  numbered := by
    cases hfound : registry.find? label with
    | some node =>
        rw [register_of_find?_eq_some hfound, ids_escalate, h.numbered]
        simp [size, Registry.escalate]
    | none =>
        rw [register_of_find?_eq_none hfound]
        have hnumbered := h.numbered
        simp only [nodes, size] at hnumbered
        simp [nodes, size, newNode, List.range_succ, hnumbered]
  described other node hfound := by
    rw [find?_register] at hfound
    split at hfound
    case isFalse => exact h.described other node hfound
    case isTrue heq =>
      subst heq
      obtain rfl := Option.some.inj hfound
      cases hknown : registry.find? other with
      | some known =>
          rw [register_of_find?_eq_some hknown]
          exact (h.described other known hknown).escalate entry
      | none =>
          rw [register_of_find?_eq_none hknown]
          rfl

theorem Orderly.ids_nodup (h : registry.Orderly) : (registry.nodes.map Node.id).Nodup := by
  rw [h.numbered]
  refine List.Nodup.map ?_ List.nodup_range
  intro a b heq
  exact Nat.succ_injective (NodeId.ofOrdinal_injective heq)

/-- Every node is the node of some label. -/
theorem Orderly.exists_find? (h : registry.Orderly) {node : Node} (hnode : node ∈ registry.nodes) :
    ∃ label, registry.find? label = some node := by
  obtain ⟨⟨label, _⟩, hmem, rfl⟩ := List.mem_map.1 hnode
  exact ⟨label, (find?_eq_some_iff h.labels_nodup).2 hmem⟩

/-- **Identifiers determine labels.** -/
theorem Orderly.idOf?_injective (h : registry.Orderly) {id : NodeId}
    (hlabel : registry.idOf? label = some id) (hother : registry.idOf? other = some id) :
    label = other := by
  obtain ⟨node, hnode, hid⟩ := Option.map_eq_some_iff.1 hlabel
  obtain ⟨node', hnode', hid'⟩ := Option.map_eq_some_iff.1 hother
  have hids : (registry.entries.map fun known => known.2.id).Nodup := by
    simpa [nodes, Function.comp_def] using h.ids_nodup
  have heq : (label, node) = (other, node') :=
    List.inj_on_of_nodup_map hids (mem_entries_of_find? hnode) (mem_entries_of_find? hnode')
      (hid.trans hid'.symm)
  exact (Prod.mk.inj heq).1

/-- Exactly the nodes of these labels are entries. -/
def Flagged (entries : List Label) (registry : Registry) : Prop :=
  ∀ label node, registry.find? label = some node → node.isEntry = entries.contains label

theorem flagged_fresh (entries : List Label) (source : ColorSource) :
    Flagged entries (fresh source) := by
  intro label node h
  simp at h

theorem Flagged.register {entries : List Label} (h : Flagged entries registry) (label : Label) :
    Flagged entries (registry.register label (entries.contains label)).2 := by
  intro other node hfound
  rw [find?_register] at hfound
  split at hfound
  case isFalse => exact h other node hfound
  case isTrue heq =>
    subst heq
    obtain rfl := Option.some.inj hfound
    cases hknown : registry.find? other with
    | some known =>
        rw [register_of_find?_eq_some hknown, Node.isEntry_escalate, h other known hknown,
          Bool.or_self]
    | none =>
        rw [register_of_find?_eq_none hknown]
        rfl

/-- A label that is known with the right flag can be registered again
without any effect. -/
theorem Flagged.register_known {entries : List Label} (h : Flagged entries registry)
    (hnodup : registry.labels.Nodup) {node : Node} (hknown : registry.find? label = some node) :
    registry.register label (entries.contains label) = (node, registry) := by
  have hsame : registry.escalate label (entries.contains label) = registry := by
    refine escalate_of_forall fun known hmem hlabel hentry => ?_
    have hfound := (find?_eq_some_iff hnodup).2 hmem
    rw [hlabel] at hfound
    rw [h label known.2 hfound, hentry]
  rw [register_of_find?_eq_some hknown, hsame,
    Node.escalate_of_imp fun hentry => (h label node hknown).trans hentry]

end Registry

end CallerGraph
