import CallerGraph.CallMap
import CallerGraph.Exploration.Resolver
import Mathlib.Data.Finset.Card
import Mathlib.Data.List.Dedup

/-!
# Sources that always say the same

A call table says who calls whom and where each method comes from, once and
for all, and it knows finitely many callers.  A resolver reads a table when
it answers from it in every state, never fails and never asks for a stop.

Everything below that is said about an exploration of a fixed source is said
for every resolver that reads a table.  Two of them are at hand: the one made
of the table itself, and a call map that nobody interrupts.
-/

namespace CallerGraph

/-- Who calls whom, and where methods come from.  Only finitely many methods
call anything. -/
structure CallTable where
  callers : Label → List Label
  origin : Label → Origin
  /-- The methods that occur as callers, and maybe others. -/
  labels : Finset Label
  caller_mem : ∀ {method caller}, caller ∈ callers method → caller ∈ labels

namespace CallTable

/-- `caller` calls `method` and is of interest. -/
def Accepts (table : CallTable) (scope : Scope) (caller method : Label) : Prop :=
  caller ∈ table.callers method ∧ scope.accepts (table.origin caller) = true

/-- The different callers of a method that are of interest, in order. -/
def accepted (table : CallTable) (scope : Scope) (method : Label) : List Label :=
  (table.callers method).eraseDups.filter fun caller => scope.accepts (table.origin caller)

theorem mem_accepted {table : CallTable} {scope : Scope} {caller method : Label} :
    caller ∈ table.accepted scope method ↔ table.Accepts scope caller method := by
  simp [accepted, Accepts]

theorem Accepts.caller_mem {table : CallTable} {scope : Scope} {caller method : Label}
    (h : table.Accepts scope caller method) : caller ∈ table.labels :=
  table.caller_mem h.1

/-- Tables with the same callers up to order and repetition, and the same
origins, accept the same calls. -/
theorem accepts_congr {table other : CallTable} (scope : Scope)
    (hcallers : ∀ method caller,
      caller ∈ table.callers method ↔ caller ∈ other.callers method)
    (horigin : ∀ label, table.origin label = other.origin label) :
    table.Accepts scope = other.Accepts scope := by
  funext caller method
  simp only [Accepts, hcallers, horigin]

end CallTable

/-- A resolver that answers from a table, whatever state it is in: no lookup
fails, no question makes anybody ask for a stop, and its span counts the
callers of the table. -/
structure Resolver.Reads {σ : Type} (resolver : Resolver σ) (table : CallTable) : Prop where
  callers : ∀ method state,
    (resolver.callers method state).answer = .ok (table.callers method)
  origin : ∀ caller state, (resolver.origin caller state).answer = table.origin caller
  callers_trips : ∀ method state, (resolver.callers method state).trips = false
  origin_trips : ∀ caller state, (resolver.origin caller state).trips = false
  span : table.labels.card ≤ resolver.span

namespace CallTable

/-- The resolver made of a table. -/
def resolver (table : CallTable) : Resolver Unit :=
  .ofTables table.callers table.origin table.labels.card

theorem reads_resolver (table : CallTable) : table.resolver.Reads table where
  callers _ _ := rfl
  origin _ _ := rfl
  callers_trips _ _ := rfl
  origin_trips _ _ := rfl
  span := le_refl _

end CallTable

namespace CallMap

/-- What a call map looks up is one of the callers that it lists. -/
theorem mem_callersOf {map : CallMap} {method caller : Label}
    (h : caller ∈ map.callersOf method) : caller ∈ map.callers.flatMap (·.2) := by
  unfold callersOf at h
  cases hfound : map.callers.lookup method with
  | none => simp [hfound] at h
  | some found =>
      obtain ⟨before, after, hsplit, -⟩ := List.lookup_eq_some_iff.1 hfound
      simp only [hfound, Option.getD_some] at h
      simp [hsplit, h]

/-- The span of a call map counts every caller that it lists. -/
theorem length_flatMap_callers (map : CallMap) :
    (map.callers.flatMap (·.2)).length = map.span := by
  have hfold : ∀ (lists : List (Label × List Label)) (count : Nat),
      lists.foldl (fun count entry => count + entry.2.length) count =
        count + (lists.flatMap (·.2)).length := by
    intro lists
    induction lists with
    | nil => simp
    | cons list lists ih =>
        intro count
        simp only [List.foldl_cons, ih, List.flatMap_cons, List.length_append]
        omega
  unfold span
  rw [hfold, Nat.zero_add]

/-- The table of a call map. -/
def table (map : CallMap) : CallTable where
  callers := map.callersOf
  origin := map.originOf
  labels := (map.callers.flatMap (·.2)).toFinset
  caller_mem h := List.mem_toFinset.2 (mem_callersOf h)

/-- A call map that nobody interrupts answers from its table, and its span
is large enough. -/
theorem reads_table (map : CallMap) {interrupts : Nat → Bool}
    (hquiet : ∀ asked, interrupts asked = false) :
    (map.resolver interrupts).Reads map.table where
  callers _ _ := rfl
  origin _ _ := rfl
  callers_trips _ asked := hquiet asked
  origin_trips _ asked := hquiet asked
  span := (List.toFinset_card_le _).trans_eq map.length_flatMap_callers

end CallMap

end CallerGraph
