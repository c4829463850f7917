import CallerGraph.Proofs.FirstAppearance
import CallerGraph.Proofs.Itinerary

/-!
# Depth-first order

Chains that start at one entry are the positions of a tree: under a chain stand
the chains made longer by a caller, in the order in which the callers are
answered.  In the depth-first order of this tree a chain comes before those
that go on from it, and where two chains part the one that parts to the earlier
caller comes first.

`Precedes` is this order, with no mention of a traversal.  It is asymmetric, so
that of the chains that one wants there is at most one list in this order, and
`CallTable.chainsUnder` is in this order.
-/

namespace CallerGraph

variable {answers : Label → List Label} {chain other : List Label}

/-- The depth-first order of chains, written with their newest methods first,
where `answers` lists the callers of a method. -/
inductive Precedes (answers : Label → List Label) (chain other : List Label) : Prop
  /-- A chain comes before the chains that go on from it. -/
  | onward (hsuffix : chain <:+ other) (hne : chain ≠ other)
  /-- Where chains part the earlier caller comes first. -/
  | branch {first second method : Label} {below : List Label}
      (horder : [first, second].Sublist (answers method))
      (hchain : first :: method :: below <:+ chain) (hother : second :: method :: below <:+ other)

/-- Of each length a list has one end. -/
theorem eq_of_suffix {ending : List Label} (h : chain <:+ ending) (h' : other <:+ ending)
    (hlength : chain.length = other.length) : chain = other :=
  (List.suffix_of_suffix_length_le h h' hlength.le).eq_of_length hlength

/-- In a list without repetition two items come in one order only. -/
theorem not_sublist_swap {items : List Label} (hnodup : items.Nodup) {first second : Label}
    (h : [first, second].Sublist items) : ¬ [second, first].Sublist items := by
  induction items with
  | nil => cases h
  | cons item items ih =>
      obtain ⟨hnew, hrest⟩ := List.nodup_cons.1 hnodup
      intro hswap
      cases h with
      | cons _ h =>
          cases hswap with
          | cons _ hswap => exact ih hrest h hswap
          | cons_cons _ _ => exact hnew (h.subset (by simp))
      | cons_cons _ h =>
          cases hswap with
          | cons _ hswap => exact hnew (hswap.subset (by simp))
          | cons_cons _ hswap => exact hnew (hswap.subset (by simp))

namespace Precedes

variable {first second method : Label} {below : List Label}

/-- Chains that part have no longer end in common. -/
theorem length_common_le (hnodup : ∀ method, (answers method).Nodup)
    (horder : [first, second].Sublist (answers method))
    (hchain : first :: method :: below <:+ chain) (hother : second :: method :: below <:+ other)
    {common : List Label} (h : common <:+ chain) (h' : common <:+ other) :
    common.length ≤ below.length + 1 := by
  by_contra hlonger
  have hroom : below.length + 2 ≤ common.length := by omega
  have hfirst : first :: method :: below <:+ common :=
    List.suffix_of_suffix_length_le hchain h hroom
  have hsecond : second :: method :: below <:+ common :=
    List.suffix_of_suffix_length_le hother h' hroom
  obtain ⟨rfl, -⟩ := List.cons.inj (eq_of_suffix hfirst hsecond rfl)
  have hpair := (hnodup method).sublist horder
  simp at hpair

/-- **Two chains come in one order only.**  Chains that part do so at one
place, and none of them goes on from the other. -/
theorem asymm (hnodup : ∀ method, (answers method).Nodup) (h : Precedes answers chain other) :
    ¬ Precedes answers other chain := by
  intro hback
  cases h with
  | onward hsuffix hne =>
      cases hback with
      | onward hsuffix' _ =>
          exact hne (hsuffix.eq_of_length (hsuffix.length_le.antisymm hsuffix'.length_le))
      | branch horder hother hchain =>
          have hlength := length_common_le hnodup horder hother hchain (hchain.trans hsuffix) hchain
          simp only [List.length_cons] at hlength
          omega
  | branch horder hchain hother =>
      cases hback with
      | onward hsuffix _ =>
          have hlength := length_common_le hnodup horder hchain hother (hother.trans hsuffix) hother
          simp only [List.length_cons] at hlength
          omega
      | branch horder' hother' hchain' =>
          have hle := length_common_le hnodup horder hchain hother
            ((List.suffix_cons _ _).trans hchain') ((List.suffix_cons _ _).trans hother')
          have hge := length_common_le hnodup horder' hother' hchain'
            ((List.suffix_cons _ _).trans hother) ((List.suffix_cons _ _).trans hchain)
          simp only [List.length_cons] at hle hge
          obtain ⟨rfl, hsame⟩ := List.cons.inj (eq_of_suffix hchain hchain'
            (by simp only [List.length_cons]; omega))
          obtain ⟨rfl, rfl⟩ := List.cons.inj hsame
          obtain ⟨rfl, -⟩ := List.cons.inj (eq_of_suffix hother hother' rfl)
          exact not_sublist_swap (hnodup _) horder horder'

theorem ne (hnodup : ∀ method, (answers method).Nodup) (h : Precedes answers chain other) :
    chain ≠ other := by
  rintro rfl
  exact h.asymm hnodup h

end Precedes

namespace CallTable

variable {table : CallTable} {scope : Scope} {limit : Option Nat}

theorem nodup_accepted (table : CallTable) (scope : Scope) (method : Label) :
    (table.accepted scope method).Nodup :=
  (nodup_eraseDups _).filter _

/-- The list has the chains from an entry that repeat no method and have a
property, each once and in depth-first order. -/
structure Preorder (table : CallTable) (scope : Scope) (wanted : List Label → Prop)
    (entry : Label) (chains : List (List Label)) : Prop where
  mem_iff : ∀ chain, chain ∈ chains ↔
    Chain (table.Accepts scope) [entry] chain ∧ chain.Nodup ∧ wanted chain
  nodup : chains.Nodup
  ordered : chains.Pairwise (Precedes (table.accepted scope))

/-- **There is one such list.** -/
theorem Preorder.unique {wanted : List Label → Prop} {entry : Label}
    {chains others : List (List Label)} (h : table.Preorder scope wanted entry chains)
    (hother : table.Preorder scope wanted entry others) : chains = others := by
  have hmem : ∀ chain, chain ∈ chains ↔ chain ∈ others :=
    fun chain => (h.mem_iff chain).trans (hother.mem_iff chain).symm
  have hperm : chains.Perm others := (List.perm_ext_iff_of_nodup h.nodup hother.nodup).2 hmem
  refine hperm.eq_of_pairwise (fun chain other _ _ hbefore hafter => ?_) h.ordered hother.ordered
  exact absurd hafter (hbefore.asymm (table.nodup_accepted scope))

end CallTable

end CallerGraph
