import CallerGraph.Proofs.CallTable
import CallerGraph.Proofs.Chain

/-!
# The chains that an exploration meets

Exploring a fixed source meets chains in an order that the table alone
decides.  Under the end of a chain come, for each accepted caller in order,
the chain made longer by the caller and then, unless the caller was on the
chain already, everything under that longer chain; where the depth limit is
reached nothing comes.  `CallTable.itinerary` is the list of all of them,
entry by entry.

The list needs no bound of its own: every caller that is followed is a new
one of finitely many.  `mem_itinerary_iff` says which chains it holds, with
no mention of the order: those that repeat no method except perhaps by their
newest, and that make no more hops than the limit allows.
-/

namespace CallerGraph

namespace CallTable

/-- A caller that is not yet on a chain leaves fewer labels off it. -/
theorem card_sdiff_lt {labels : Finset Label} {chain : List Label} {caller : Label}
    (hlabel : caller ∈ labels) (hnew : caller ∉ chain) :
    (labels \ (caller :: chain).toFinset).card < (labels \ chain.toFinset).card := by
  rw [List.toFinset_cons, Finset.sdiff_insert]
  exact Finset.card_erase_lt_of_mem (by simp [hlabel, hnew])

/-- The chains met under `method`, which was reached by way of `below`. -/
def chainsUnder (table : CallTable) (scope : Scope) (limit : Option Nat)
    (below : List Label) (method : Label) : List (List Label) :=
  if ∀ most ∈ limit, below.length < most then
    (table.accepted scope method).attach.flatMap fun caller =>
      (caller.1 :: method :: below) ::
        if _h : caller.1 ∈ method :: below then []
        else chainsUnder table scope limit (method :: below) caller.1
  else []
termination_by (table.labels \ (method :: below).toFinset).card
decreasing_by exact card_sdiff_lt (mem_accepted.1 caller.2).caller_mem _h

/-- All chains met from the entries, in order. -/
def itinerary (table : CallTable) (scope : Scope) (limit : Option Nat)
    (entries : List Label) : List (List Label) :=
  entries.flatMap fun entry => [entry] :: table.chainsUnder scope limit [] entry

variable {table : CallTable} {scope : Scope} {limit : Option Nat}

/-- What is met at the end of a chain that may still grow: the callers in
order, each with what is under it. -/
theorem chainsUnder_of_lt {below : List Label} {method : Label}
    (hroom : ∀ most ∈ limit, below.length < most) :
    table.chainsUnder scope limit below method =
      (table.accepted scope method).flatMap fun caller =>
        (caller :: method :: below) ::
          if caller ∈ method :: below then []
          else table.chainsUnder scope limit (method :: below) caller := by
  rw [chainsUnder, if_pos hroom, List.flatMap_subtype (fun _ _ => by simp only [dite_eq_ite]; rfl),
    List.unattach_attach]

theorem chainsUnder_of_not_lt {below : List Label} {method : Label}
    (hfull : ¬ ∀ most ∈ limit, below.length < most) :
    table.chainsUnder scope limit below method = [] := by
  rw [chainsUnder, if_neg hfull]

theorem mem_chainsUnder {below chain : List Label} {method : Label} :
    chain ∈ table.chainsUnder scope limit below method ↔
      (∀ most ∈ limit, below.length < most) ∧
      ∃ caller, table.Accepts scope caller method ∧
        (chain = caller :: method :: below ∨
          caller ∉ method :: below ∧
            chain ∈ table.chainsUnder scope limit (method :: below) caller) := by
  by_cases hroom : ∀ most ∈ limit, below.length < most
  · rw [chainsUnder_of_lt hroom]
    simp only [List.mem_flatMap, mem_accepted, List.mem_cons (a := chain), List.mem_ite_nil_left]
    exact ⟨fun h => ⟨hroom, h⟩, fun h => h.2⟩
  · rw [chainsUnder_of_not_lt hroom]
    exact ⟨fun h => absurd h List.not_mem_nil, fun h => absurd h.1 hroom⟩

/-- An induction along the way in which `chainsUnder` goes on: what holds of
the end of a chain once it holds of all longer chains that are followed from
there holds of every end. -/
theorem chainsUnder_induction (table : CallTable) (scope : Scope)
    {motive : List Label → Label → Prop}
    (step : ∀ below method, (∀ caller, table.Accepts scope caller method →
      caller ∉ method :: below → motive (method :: below) caller) → motive below method)
    (below : List Label) (method : Label) : motive below method := by
  induction hcard : (table.labels \ (method :: below).toFinset).card
    using Nat.strongRecOn generalizing below method with
  | ind card ih =>
      refine step below method fun caller hcall hnew => ?_
      exact ih _ (hcard ▸ card_sdiff_lt hcall.caller_mem hnew) _ _ rfl

/-- What is met under a chain are chains that repeat no method except perhaps
by their newest, within the limit. -/
theorem chain_of_mem_chainsUnder {entries below chain : List Label} {method : Label}
    (hmem : chain ∈ table.chainsUnder scope limit below method)
    (hchain : Chain (table.Accepts scope) entries (method :: below))
    (hnodup : (method :: below).Nodup) :
    Chain (table.Accepts scope) entries chain ∧ chain.tail.Nodup ∧
      ∀ most ∈ limit, chain.tail.length ≤ most := by
  induction below, method using chainsUnder_induction table scope with
  | step below method ih =>
      obtain ⟨hroom, caller, hcall, rfl | ⟨hnew, hdeeper⟩⟩ := mem_chainsUnder.1 hmem
      · exact ⟨hchain.call hcall, hnodup, hroom⟩
      · exact ih caller hcall hnew hdeeper (hchain.call hcall) (hnodup.cons hnew)

/-- Under a chain that is met and may grow, every accepted caller is met. -/
theorem cons_mem_chainsUnder {below above : List Label} {start method caller : Label}
    (hmem : method :: above ∈ table.chainsUnder scope limit below start)
    (hnew : method ∉ above) (hroom : ∀ most ∈ limit, above.length < most)
    (hcall : table.Accepts scope caller method) :
    caller :: method :: above ∈ table.chainsUnder scope limit below start := by
  induction below, start using chainsUnder_induction table scope with
  | step below start ih =>
      obtain ⟨hstart, first, hfirst, heq | ⟨hfresh, hdeeper⟩⟩ := mem_chainsUnder.1 hmem
      · obtain ⟨rfl, rfl⟩ := List.cons.inj heq
        refine mem_chainsUnder.2 ⟨hstart, method, hfirst, Or.inr ⟨hnew, ?_⟩⟩
        exact mem_chainsUnder.2 ⟨hroom, caller, hcall, Or.inl rfl⟩
      · exact mem_chainsUnder.2
          ⟨hstart, first, hfirst, Or.inr ⟨hfresh, ih first hfirst hfresh hdeeper⟩⟩

/-- **The chains of an itinerary.**  It holds the chains that repeat no
method, except perhaps by their newest one, and that make no more hops than
the limit allows, and no others. -/
theorem mem_itinerary_iff {entries chain : List Label} :
    chain ∈ table.itinerary scope limit entries ↔
      Chain (table.Accepts scope) entries chain ∧ chain.tail.Nodup ∧
        ∀ most ∈ limit, chain.tail.length ≤ most := by
  constructor
  · intro hmem
    obtain ⟨entry, hentry, hmem⟩ := List.mem_flatMap.1 hmem
    rcases List.mem_cons.1 hmem with rfl | hunder
    · exact ⟨.entry hentry, List.nodup_nil, fun most _ => Nat.zero_le most⟩
    · exact chain_of_mem_chainsUnder hunder (.entry hentry) (List.nodup_singleton entry)
  · intro h
    obtain ⟨hchain, hnodup, hlimit⟩ := h
    induction hchain with
    | entry hentry => exact List.mem_flatMap.2 ⟨_, hentry, List.mem_cons_self⟩
    | @call caller method below hchain hcall ih =>
        obtain ⟨hnew, hbelow⟩ := List.nodup_cons.1 hnodup
        have hroom : ∀ most ∈ limit, below.length < most := hlimit
        have hbefore := ih hbelow fun most hmost => (hroom most hmost).le
        obtain ⟨entry, hentry, hmem⟩ := List.mem_flatMap.1 hbefore
        refine List.mem_flatMap.2 ⟨entry, hentry, List.mem_cons_of_mem _ ?_⟩
        rcases List.mem_cons.1 hmem with heq | hunder
        · obtain ⟨rfl, rfl⟩ := List.cons.inj heq
          exact mem_chainsUnder.2 ⟨hroom, caller, hcall, Or.inl rfl⟩
        · exact cons_mem_chainsUnder hunder hnew hroom hcall

end CallTable

end CallerGraph
