import CallerGraph.Proofs.Endings

/-!
# Which lookups are made, and in which order

When a source says of every method either always the same or always that the
lookup fails, the table alone decides which lookups an exploration makes: one
for each chain of the itinerary on which it goes on, in the order of the
itinerary, until one of them fails.

`CallTable.expansions` lists these chains.  A step follows a list of chains when
it looks them up in order and is through with them unless it fails, and steps
that follow two lists follow, one behind the other, both.
-/

namespace CallerGraph

/-- The chain that is looked up: the method, and the methods below it. -/
def Query.chain? : Query → Option (List Label)
  | callers method below => some (method :: below)
  | origin _ => none

namespace CallTable

variable (table : CallTable) (scope : Scope) (limit : Option Nat)

variable {table scope limit}

end CallTable

variable {σ : Type} {resolver : Resolver σ} {table : CallTable} {failing : Set Label}

namespace Resolver

/-- Nobody asks for a stop during any question. -/
def Calm (resolver : Resolver σ) : Prop :=
  ∀ moment, resolver.trips moment = false

/-- With such a resolver nobody has asked for a stop later if nobody had before. -/
theorem Calm.quiet (h : resolver.Calm) {before after : Session σ} {asked : List Query}
    (hcontinues : before.Continues resolver asked after) (hquiet : before.cancelled = false) :
    after.cancelled = false := by
  have hnone : (resolver.moments before.state asked).any resolver.trips = false :=
    List.any_eq_false.2 fun moment _ => by simp [h moment]
  rw [hcontinues.cancelled, hquiet, hnone, Bool.or_self]

end Resolver

namespace Explore

variable {α β : Type}

/-- Does the step look up the chains of a list in their order, all of them
unless it fails? -/
def Follows (resolver : Resolver σ) (plan : List (List Label)) (step : Explore σ α) : Prop :=
  ∀ found, found.session.cancelled = false → ∃ asked,
    found.session.Continues resolver asked (leftBy (step.run found)).session ∧
    asked.filterMap Query.chain? <+: plan ∧
    (failure? (step.run found) = none → asked.filterMap Query.chain? = plan)

theorem Follows.bind (hcalm : resolver.Calm) {step : Explore σ α} {next : α → Explore σ β}
    {plan more : List (List Label)} (hstep : Follows resolver plan step)
    (hnext : ∀ found value left, step.run found = .ok value left →
      Follows resolver more (next value)) :
    Follows resolver (plan ++ more) (step >>= next) := by
  intro found hquiet
  obtain ⟨asked, hasked, hinitial, hall⟩ := hstep found hquiet
  rw [EStateM.run_bind]
  cases hrun : step.run found with
  | error error middle =>
      rw [hrun] at hasked
      exact ⟨asked, hasked, hinitial.trans (List.prefix_append _ _), nofun⟩
  | ok value middle =>
      rw [hrun] at hasked hall
      obtain ⟨rest, hrest, hrestInitial, hrestAll⟩ :=
        hnext found value middle hrun middle (hcalm.quiet hasked hquiet)
      refine ⟨asked ++ rest, hasked.trans hrest, ?_, fun hnone => ?_⟩
      · rw [List.filterMap_append, hall rfl]
        exact (List.prefix_append_right_inj plan).2 hrestInitial
      · rw [List.filterMap_append, hall rfl, hrestAll hnone]

section Visits

variable (options : ExploreOptions) (entries : List Label)

end Visits

end Explore

end CallerGraph
