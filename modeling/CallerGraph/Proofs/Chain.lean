import CallerGraph.Label.Basic
import Mathlib.Data.List.Nodup

/-!
# Chains of callers

A chain starts at an entry and adds a caller at a time; it is written with
its newest method first.  A method may come more than once on it.  The hops
of a chain are the methods below its newest one.

An exploration follows only chains on which no method comes twice.  It loses
nothing by that: `Chain.exists_simple` cuts the detours out of a chain and
leaves one that ends at the same method, is no longer, and passes through no
method that the first one avoids.
-/

namespace CallerGraph

/-- Chains from the entries, where `calls caller method` says which callers
may be added to a method. -/
inductive Chain (calls : Label → Label → Prop) (entries : List Label) :
    List Label → Prop
  | entry {method : Label} (hentry : method ∈ entries) : Chain calls entries [method]
  | call {caller method : Label} {below : List Label}
      (hchain : Chain calls entries (method :: below)) (hcall : calls caller method) :
      Chain calls entries (caller :: method :: below)

namespace Chain

variable {calls : Label → Label → Prop} {entries : List Label}

/-- Every method on a chain is the newest one of a chain inside it. -/
theorem suffix {above below : List Label} {method : Label}
    (h : Chain calls entries (above ++ method :: below)) :
    Chain calls entries (method :: below) := by
  induction above with
  | nil => exact h
  | cons newest above ih =>
      apply ih
      cases above <;> cases h with
      | call hchain _ => exact hchain

theorem tail {caller method : Label} {below : List Label}
    (h : Chain calls entries (caller :: method :: below)) :
    Chain calls entries (method :: below) := by
  have hwhole : Chain calls entries ([caller] ++ method :: below) := h
  exact hwhole.suffix

/-- The newest call of a chain. -/
theorem head_calls {caller method : Label} {below : List Label}
    (h : Chain calls entries (caller :: method :: below)) : calls caller method := by
  cases h with
  | call _ hcall => exact hcall

/-- **Detours can be cut out.**  For every chain to a method there is one
without repetition that has no more hops and stays among the methods of the
first.  A caller that is new is added to the shorter chain; one that is
already on it makes everything above it a detour. -/
theorem exists_simple {method : Label} {below : List Label}
    (h : Chain calls entries (method :: below)) :
    ∃ short, Chain calls entries (method :: short) ∧ (method :: short).Nodup ∧
      short.length ≤ below.length ∧ method :: short ⊆ method :: below := by
  generalize hwhole : method :: below = whole at h
  induction h generalizing method below with
  | entry hentry =>
      obtain ⟨rfl, rfl⟩ := List.cons.inj hwhole
      exact ⟨[], .entry hentry, by simp, by simp, by simp⟩
  | @call caller callee rest hchain hcall ih =>
      obtain ⟨rfl, rfl⟩ := List.cons.inj hwhole
      obtain ⟨short, hshort, hnodup, hlength, hsub⟩ := ih rfl
      -- A caller that the shorter chain passes through ends a part of that chain.
      by_cases hmem : method ∈ callee :: short
      · obtain ⟨above, suffix, hsplit⟩ := List.append_of_mem hmem
        have hlonger : suffix.length ≤ short.length := by
          have hlengths := congrArg List.length hsplit
          simp only [List.length_cons, List.length_append] at hlengths
          omega
        have hsuffix : (method :: suffix).Sublist (callee :: short) :=
          hsplit ▸ List.sublist_append_right _ _
        refine ⟨suffix, ?_, hnodup.sublist hsuffix, ?_, ?_⟩
        · rw [hsplit] at hshort
          exact hshort.suffix
        · simp only [List.length_cons]
          omega
        · intro label hlabel
          exact List.mem_cons_of_mem _ (hsub (hsuffix.subset hlabel))
      · refine ⟨callee :: short, hshort.call hcall, hnodup.cons hmem, by simpa using hlength, ?_⟩
        exact List.cons_subset_cons _ hsub

/-- The chains depend on the entries only up to order and repetition. -/
theorem of_entries_subset {others : List Label} (hentries : ∀ entry ∈ entries, entry ∈ others)
    {chain : List Label} (h : Chain calls entries chain) : Chain calls others chain := by
  induction h with
  | entry hentry => exact .entry (hentries _ hentry)
  | call _ hcall ih => exact ih.call hcall

theorem entries_congr {others : List Label} (hentries : ∀ label, label ∈ entries ↔ label ∈ others) :
    Chain calls entries = Chain calls others := by
  funext chain
  exact propext ⟨of_entries_subset fun entry => (hentries entry).1,
    of_entries_subset fun entry => (hentries entry).2⟩

end Chain

end CallerGraph
