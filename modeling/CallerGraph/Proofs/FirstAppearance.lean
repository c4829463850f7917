import CallerGraph.Proofs.Registration
import Mathlib.Data.List.Induction
import Mathlib.Data.List.Nodup

/-!
# The order of first appearance

A registry has its labels in the order in which they first came, which is the
order that `List.eraseDups` leaves.  What comes again has no say in that order,
so that lists which differ by repetitions only can stand for one another.
-/

namespace CallerGraph

section List

variable {α : Type} [BEq α] [LawfulBEq α] {items others : List α} {item : α}

/-- An item at the end counts unless it came before. -/
theorem eraseDups_concat (items : List α) (item : α) :
    (items ++ [item]).eraseDups =
      if item ∈ items then items.eraseDups else items.eraseDups ++ [item] := by
  rw [List.eraseDups_append]
  by_cases hold : item ∈ items
  · simp [List.removeAll, hold]
  · simp [List.removeAll, hold, List.eraseDups_cons]

theorem nodup_eraseDups (items : List α) : items.eraseDups.Nodup := by
  induction items using List.reverseRecOn with
  | nil => exact List.nodup_nil
  | append_singleton items item ih =>
      rw [eraseDups_concat]
      by_cases hold : item ∈ items
      · rwa [if_pos hold]
      · rw [if_neg hold]
        exact List.nodup_append_comm.1 (ih.cons fun hmem => hold (List.mem_eraseDups.1 hmem))

theorem eraseDups_of_nodup (h : items.Nodup) : items.eraseDups = items := by
  induction items with
  | nil => rfl
  | cons item items ih =>
      obtain ⟨hitem, hitems⟩ := List.nodup_cons.1 h
      have hkept : items.filter (fun other => !other == item) = items := by
        apply List.filter_eq_self.2
        intro other hother
        simpa using ne_of_mem_of_not_mem hother hitem
      rw [List.eraseDups_cons, hkept, ih hitems]

end List

namespace Registry

variable {registry : Registry} {label : Label} {node : Node} {position : Nat}

/-- Registering one more label after others. -/
theorem labels_register_of_eq {labels : List Label} (h : registry.labels = labels.eraseDups)
    (label : Label) (entry : Bool) :
    (registry.register label entry).2.labels = (labels ++ [label]).eraseDups := by
  have hmem : label ∈ registry.labels ↔ label ∈ labels := by rw [h, List.mem_eraseDups]
  rw [labels_register, eraseDups_concat, ← h]
  simp only [hmem]

/-- The node at a position has the number of the position, counted from 1. -/
theorem Orderly.id_of_getElem? (h : registry.Orderly)
    (hnode : registry.entries[position]? = some (label, node)) :
    node.id = .ofOrdinal (position + 1) := by
  have hsize : position < registry.size := (List.getElem?_eq_some_iff.1 hnode).1
  have hnumber := congrArg (·[position]?) h.numbered
  simpa [nodes, hnode, hsize] using hnumber

/-- **Numbers count labels.**  A label has the number `k` exactly when it is
the `k`-th one that came. -/
theorem Orderly.idOf?_eq_some_iff (h : registry.Orderly) :
    registry.idOf? label = some (.ofOrdinal (position + 1)) ↔
      registry.labels[position]? = some label := by
  constructor
  · intro hid
    obtain ⟨node, hfound, hnumber⟩ := Option.map_eq_some_iff.1 hid
    obtain ⟨other, hother⟩ := List.mem_iff_getElem?.1 (mem_entries_of_find? hfound)
    have hsame : other + 1 = position + 1 :=
      NodeId.ofOrdinal_injective ((h.id_of_getElem? hother).symm.trans hnumber)
    obtain rfl := Nat.succ.inj hsame
    rw [labels, List.getElem?_map, hother, Option.map_some]
  · intro hlabel
    rw [labels, List.getElem?_map] at hlabel
    obtain ⟨⟨other, node⟩, hentry, rfl⟩ := Option.map_eq_some_iff.1 hlabel
    have hfound := (find?_eq_some_iff h.labels_nodup).2 (List.mem_of_getElem? hentry)
    rw [idOf?, hfound, Option.map_some, h.id_of_getElem? hentry]

/-- Every identifier has the number of a label. -/
theorem Orderly.exists_position (h : registry.Orderly) {id : NodeId}
    (hid : registry.idOf? label = some id) :
    ∃ position, position < registry.labels.length ∧ id = .ofOrdinal (position + 1) := by
  have hknown := exists_idOf?_iff.1 ⟨id, hid⟩
  obtain ⟨position, hposition⟩ := List.mem_iff_getElem?.1 hknown
  have hnumber := h.idOf?_eq_some_iff.2 hposition
  exact ⟨position, (List.getElem?_eq_some_iff.1 hposition).1,
    Option.some.inj (hid.symm.trans hnumber)⟩

end Registry

end CallerGraph
