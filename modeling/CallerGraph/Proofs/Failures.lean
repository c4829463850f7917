import CallerGraph.Proofs.ExploredGraph
import CallerGraph.Proofs.LookupOrder

/-!
# When an exploration fails

Exploring a source in which the lookups of some methods fail has a draft at the
end exactly when the exploration does not get to any of these methods, where it
gets to those that are the end of a chain which leaves room for another hop.  As
soon as it gets to one it is over: that lookup is the last question, and it is
the first lookup of a failing method.

What a failing method would have had for callers plays no part, so whether the
exploration fails is the same for tables that differ there only.
-/

namespace CallerGraph

variable {σ : Type} {resolver : Resolver σ} {table : CallTable} {failing : Set Label}

/-- When the callers of all methods but the failing ones are the same, a chain to
a failing method is there with both, at least as far as the first failing method
on it. -/
theorem Chain.exists_failing {calls others : Label → Label → Prop} {entries : List Label}
    (hagree : ∀ method ∉ failing, ∀ caller, calls caller method → others caller method)
    {method : Label} {below : List Label} (h : Chain calls entries (method :: below))
    (hfailing : method ∈ failing) :
    ∃ first ∈ failing, ∃ short, Chain others entries (first :: short) ∧
      short.length ≤ below.length := by
  -- A chain is carried over call by call, up to the first callee that fails.
  have hfirst : Chain others entries (method :: below) ∨ ∃ first ∈ failing, ∃ short,
      Chain others entries (first :: short) ∧ short.length ≤ below.length := by
    clear hfailing
    generalize hwhole : method :: below = whole at h
    induction h generalizing method below with
    | entry hentry =>
        obtain ⟨rfl, rfl⟩ := List.cons.inj hwhole
        exact .inl (.entry hentry)
    | @call caller callee rest hchain hcall ih =>
        obtain ⟨rfl, rfl⟩ := List.cons.inj hwhole
        obtain hother | ⟨first, hfailing, short, hother, hlength⟩ := ih rfl
        · by_cases hfailing : callee ∈ failing
          · exact .inr ⟨callee, hfailing, rest, hother, Nat.le_succ _⟩
          · exact .inl (hother.call (hagree callee hfailing _ hcall))
        · exact .inr ⟨first, hfailing, short, hother, hlength.trans (Nat.le_succ _)⟩
  obtain hother | hother := hfirst
  · exact ⟨method, hfailing, below, hother, le_refl _⟩
  · exact hother

/-- Does an exploration get to a failing method while it goes on? -/
def CallTable.GetsTo (table : CallTable) (failing : Set Label) (options : ExploreOptions)
    (entries : List Label) : Prop :=
  ∃ method ∈ failing, ∃ below, table.Expands options entries below method

namespace Resolver.ReadsUnless

end Resolver.ReadsUnless

variable {options : ExploreOptions} {entries : List Label} {session : Session σ}

/-- Whether an exploration gets to a failing method depends on the entries and on
the callers of the other methods, and not on the order of either. -/
theorem CallTable.GetsTo.congr {other : CallTable} {others : List Label}
    {otherOptions : ExploreOptions} (hscope : options.scope = otherOptions.scope)
    (hdepth : options.maxDepth = otherOptions.maxDepth)
    (hcallers : ∀ method ∉ failing, ∀ caller,
      caller ∈ table.callers method → caller ∈ other.callers method)
    (horigin : ∀ label, table.origin label = other.origin label)
    (hentries : ∀ label, label ∈ entries ↔ label ∈ others)
    (h : table.GetsTo failing options entries) : other.GetsTo failing otherOptions others := by
  obtain ⟨method, hfailing, below, hchain, hroom⟩ := h
  have hagree : ∀ method ∉ failing, ∀ caller, table.Accepts options.scope caller method →
      other.Accepts options.scope caller method :=
    fun method hworks caller h => ⟨hcallers method hworks caller h.1, horigin caller ▸ h.2⟩
  obtain ⟨first, hfirst, short, hother, hlength⟩ := hchain.exists_failing hagree hfailing
  rw [Chain.entries_congr hentries, hscope] at hother
  rw [hdepth] at hroom
  exact ⟨first, hfirst, short, hother, fun most hmost => hlength.trans_lt (hroom most hmost)⟩

end CallerGraph
