import CallerGraph.Proofs.Endings

/-!
# Stops that are heeded

Once a stop was asked for, nothing is looked up any more, whatever the resolver
does and wherever in the exploration it happens.

* When it was asked for before, nothing is asked at all.
* When it is asked for during a lookup, that is the last question.  The
  exploration is given up, or it fails if the lookup did: `Resolver.BreaksOff`.
* When it is asked for during the question where a caller comes from, there may be
  further questions of that kind, and no lookup.

That nothing is looked up is `Resolver.Heeds`, which every stretch of an
exploration keeps.  Breaking off is another description of stretches that can be
put one behind the other: a stretch that comes to its end has not broken off.
-/

namespace CallerGraph

variable {σ : Type} {resolver : Resolver σ}

namespace Resolver

/-- No lookup comes after a stop was asked for. -/
theorem Heeds.lookup?_eq_none {moments : List (Moment σ)} (h : resolver.Heeds true moments) :
    ∀ moment ∈ moments, moment.query.lookup? = none := by
  induction moments with
  | nil => exact List.forall_mem_nil _
  | cons moment moments ih =>
      obtain ⟨hfirst, hrest⟩ := h
      rw [Bool.true_or] at hrest
      refine List.forall_mem_cons.2 ⟨?_, ih hrest⟩
      rw [← Option.not_isSome_iff_eq_none]
      exact fun hlookup => Bool.noConfusion (hfirst hlookup)

/-- With a moment in which a stop is asked for the lookups are over. -/
theorem Heeds.lookup?_eq_none_of_trips {cancelled : Bool} {earlier later : List (Moment σ)}
    {moment : Moment σ} (h : resolver.Heeds cancelled (earlier ++ moment :: later))
    (htrips : resolver.trips moment = true) : ∀ after ∈ later, after.query.lookup? = none := by
  obtain ⟨-, -, hlater⟩ := heeds_append.1 h
  rw [htrips, Bool.or_true] at hlater
  exact hlater.lookup?_eq_none

/-- The questions of the moments are those that were asked. -/
theorem query_mem_of_mem_moments {state : σ} {asked : List Query} {moment : Moment σ}
    (h : moment ∈ resolver.moments state asked) : moment.query ∈ asked := by
  rw [← resolver.map_query_moments state asked]
  exact List.mem_map_of_mem h

/-- Does everything end with a lookup during which a stop is asked for?  The error
is that of the lookup if it fails, and otherwise the cancellation. -/
def BreaksOff (resolver : Resolver σ) (moments : List (Moment σ)) (failure : Option GraphError) :
    Prop :=
  ∀ earlier moment later, moments = earlier ++ moment :: later →
    moment.query.lookup?.isSome = true → resolver.trips moment = true →
    later = [] ∧ failure = some ((resolver.failure? moment).getD .cancelled)

variable {moments more : List (Moment σ)} {failure : Option GraphError}

/-- Where no lookup meets with a stop there is nothing to break off. -/
theorem breaksOff_of_forall (h : ∀ moment ∈ moments, moment.query.lookup?.isSome = true →
    resolver.trips moment = false) (failure : Option GraphError) :
    resolver.BreaksOff moments failure := by
  intro earlier moment later hmoments hlookup htrips
  have hnone := h moment (by simp [hmoments]) hlookup
  rw [htrips] at hnone
  cases hnone

theorem breaksOff_nil (resolver : Resolver σ) (failure : Option GraphError) :
    resolver.BreaksOff [] failure :=
  breaksOff_of_forall (List.forall_mem_nil _) failure

theorem breaksOff_origins (state : σ) (callers : List Label) (failure : Option GraphError) :
    resolver.BreaksOff (resolver.moments state (callers.map .origin)) failure := by
  refine breaksOff_of_forall (fun moment hmoment hlookup => ?_) failure
  obtain ⟨caller, -, hquery⟩ := List.mem_map.1 (query_mem_of_mem_moments hmoment)
  rw [← hquery] at hlookup
  cases hlookup

theorem breaksOff_singleton {moment : Moment σ}
    (h : resolver.trips moment = true →
      failure = some ((resolver.failure? moment).getD .cancelled)) :
    resolver.BreaksOff [moment] failure := by
  intro earlier other later hmoments _ htrips
  obtain ⟨rfl, hother⟩ : earlier = [] ∧ [moment] = other :: later := by
    cases earlier with
    | nil => exact ⟨rfl, hmoments⟩
    | cons first earlier => simp at hmoments
  obtain ⟨rfl, rfl⟩ := List.cons.inj hother
  exact ⟨rfl, h htrips⟩

/-- What has come to its end has not broken off, so anything can follow. -/
theorem BreaksOff.append (hfirst : resolver.BreaksOff moments none)
    (hthen : resolver.BreaksOff more failure) : resolver.BreaksOff (moments ++ more) failure := by
  intro earlier moment later hsplit hlookup htrips
  obtain ⟨between, -, hmore⟩ | ⟨between, hmoments, hrest⟩ := List.append_eq_append_iff.1 hsplit
  · exact hthen between moment later hmore hlookup htrips
  · cases between with
    | nil => exact hthen [] moment later hrest.symm hlookup htrips
    | cons first between =>
        obtain ⟨rfl, -⟩ := List.cons.inj hrest
        obtain ⟨-, hnone⟩ := hfirst earlier moment between hmoments hlookup htrips
        cases hnone

end Resolver

namespace Explore

/-- Does the step break off at a lookup during which a stop is asked for, wherever
it starts? -/
def BreaksOff {α : Type} (resolver : Resolver σ) (step : Explore σ α) : Prop :=
  Along (fun before failure after => ∃ asked, before.Continues resolver asked after ∧
    resolver.BreaksOff (resolver.moments before.state asked) failure) step

theorem composes_breaksOff (resolver : Resolver σ) : Composes resolver
    fun before failure after => ∃ asked, before.Continues resolver asked after ∧
      resolver.BreaksOff (resolver.moments before.state asked) failure where
  silent hsilent := ⟨[], hsilent, Resolver.breaksOff_nil _ _⟩
  trans := by
    intro before middle after failure hfirst hthen
    obtain ⟨asked, hasked, hbreaks⟩ := hfirst
    obtain ⟨more, hmore, hthen⟩ := hthen
    refine ⟨asked ++ more, hasked.trans hmore, ?_⟩
    rw [Resolver.moments_append, ← hasked.state]
    exact hbreaks.append hthen

theorem breaksOff_check : BreaksOff resolver (check : Explore σ Unit) := by
  intro found
  refine ⟨[], ?_, Resolver.breaksOff_nil _ _⟩
  cases hcancelled : found.session.cancelled with
  | false =>
      rw [run_check hcancelled]
      exact .refl resolver found.session
  | true =>
      rw [run_check_of_cancelled hcancelled]
      exact .refl resolver found.session

theorem breaksOff_callersInScope (resolver : Resolver σ) (scope : Scope) (method : Label)
    (below : List Label) : BreaksOff resolver (callersInScope resolver scope method below) := by
  intro found
  rw [run_callersInScope_eq]
  have hlookup := found.session.continues_askCallers resolver method below
  have hreply : (found.session.askCallers resolver method below).1 =
      (resolver.callers method found.session.state).answer := rfl
  cases hquiet : found.session.cancelled with
  | true => exact ⟨[], .refl resolver found.session, Resolver.breaksOff_nil _ _⟩
  | false =>
      cases hanswer : (found.session.askCallers resolver method below).1 with
      | error message =>
          simp only [hanswer]
          refine ⟨_, hlookup, Resolver.breaksOff_singleton fun _ => ?_⟩
          rw [hreply] at hanswer
          simp only [Resolver.failure?, hanswer]
          rfl
      | ok callers =>
          simp only [hanswer]
          cases hafter : (found.session.askCallers resolver method below).2.cancelled with
          | true =>
              refine ⟨_, hlookup, Resolver.breaksOff_singleton fun _ => ?_⟩
              rw [hreply] at hanswer
              simp only [Resolver.failure?, hanswer]
              rfl
          | false =>
              have hstill : resolver.trips ⟨found.session.state, .callers method below⟩ = false := by
                have hcancelled := hlookup.cancelled
                rw [hafter, hquiet] at hcancelled
                simpa [Resolver.moments] using hcancelled.symm
              refine ⟨_, hlookup.trans (Session.continues_screen resolver scope _ _), ?_⟩
              rw [Resolver.moments_append]
              refine Resolver.BreaksOff.append (Resolver.breaksOff_singleton fun htrips => ?_)
                (Resolver.breaksOff_origins _ _ _)
              rw [hstill] at htrips
              cases htrips

theorem breaksOff_visitEntries (resolver : Resolver σ) (options : ExploreOptions)
    (entries : List Label) : BreaksOff resolver (visitEntries resolver options entries) :=
  (composes_breaksOff resolver).forM fun entry =>
    (composes_breaksOff resolver).visit breaksOff_check
      (breaksOff_callersInScope resolver options.scope) entries _ [] entry

/-- A visit that is begun after a stop was asked for is given up at once. -/
theorem run_visit_of_cancelled {found : Exploration σ} (hcancelled : found.session.cancelled = true)
    (options : ExploreOptions) (entries : List Label) (hops : Nat) (below : List Label)
    (method : Label) :
    (visit resolver options entries hops below method).run found = .error .cancelled found := by
  have hcheck := run_check_of_cancelled hcancelled
  cases hops with
  | zero => rw [visit, EStateM.run_bind, hcheck]
  | succ hops => rw [visit_succ, EStateM.run_bind, hcheck]

end Explore

variable {options : ExploreOptions} {entries : List Label} {session : Session σ}

/-- An exploration that is begun after a stop was asked for is given up at its
first entry. -/
theorem explore_of_cancelled (hcancelled : session.cancelled = true) (hentries : entries ≠ []) :
    explore resolver options entries session = (.error .cancelled, session) := by
  obtain ⟨entry, rest, rfl⟩ := List.exists_cons_of_ne_nil hentries
  let start : Exploration σ := ⟨.fresh options.colors, session⟩
  have hfirst : (Explore.visit resolver options (entry :: rest) (Explore.reach resolver options)
      [] entry).run start = .error .cancelled start :=
    Explore.run_visit_of_cancelled hcancelled _ _ _ _ _
  have hvisits : (Explore.visitEntries resolver options (entry :: rest)).run start =
      .error .cancelled start := by
    change (Explore.visit resolver options (entry :: rest) _ [] entry >>= fun _ => _).run start = _
    rw [EStateM.run_bind, hfirst]
  rw [explore_eq_concluded, hvisits]
  rfl

/-- An exploration breaks off at a lookup during which a stop is asked for. -/
theorem explore_breaksOff (resolver : Resolver σ) (options : ExploreOptions)
    (entries : List Label) (session : Session σ) :
    let explored := explore resolver options entries session
    resolver.BreaksOff (resolver.moments session.state (session.since explored.2))
      (GraphError.of? explored.1) := by
  intro explored
  obtain ⟨asked, hasked, hbreaks⟩ :=
    Explore.breaksOff_visitEntries resolver options entries ⟨.fresh options.colors, session⟩
  rw [← Explore.session_concluded, ← explore_eq_concluded] at hasked
  rw [← Explore.of?_concluded, ← explore_eq_concluded] at hbreaks
  rw [show session.since explored.2 = asked from hasked.since_eq]
  exact hbreaks

theorem GraphError.eq_error_of_of? {α : Type} {result : Except GraphError α} {error : GraphError}
    (h : of? result = some error) : result = .error error := by
  cases result with
  | ok value => cases h
  | error other => exact congrArg Except.error (Option.some.inj h)

/-- How an exploration ends after a lookup during which a stop is asked for. -/
theorem explore_of_tripping_lookup {earlier later : List (Moment σ)} {moment : Moment σ}
    {method : Label} {below : List Label}
    (hmoments : resolver.moments session.state
      (session.since (explore resolver options entries session).2) = earlier ++ moment :: later)
    (hquery : moment.query = .callers method below) (htrips : resolver.trips moment = true) :
    later = [] ∧
      (∀ callers, (resolver.callers method moment.state).answer = .ok callers →
        (explore resolver options entries session).1 = .error .cancelled) ∧
      ∀ message, (resolver.callers method moment.state).answer = .error message →
        (explore resolver options entries session).1 =
          .error (.lookup method message (some message)) := by
  have hlookup : moment.query.lookup?.isSome = true := by
    rw [hquery]
    rfl
  obtain ⟨hlast, hfailure⟩ := explore_breaksOff resolver options entries session
    earlier moment later hmoments hlookup htrips
  refine ⟨hlast, fun callers hanswer => ?_, fun message hanswer => ?_⟩
  · have hnone : resolver.failure? moment = none := by
      simp only [Resolver.failure?, hquery, hanswer]
    rw [hnone] at hfailure
    exact GraphError.eq_error_of_of? hfailure
  · have hsome : resolver.failure? moment = some (.lookupFailed method message) := by
      simp only [Resolver.failure?, hquery, hanswer]
    rw [hsome] at hfailure
    exact GraphError.eq_error_of_of? hfailure

/-- **No lookup after a stop.**  Whatever the resolver does, and whatever the
entries and options are:

* if a stop was asked for before, nothing is asked, and the exploration is given up
  unless there are no entries;
* from the moment in which a stop is asked for on nothing is looked up, be it for
  the method at hand, for one below it or for a later entry;
* if that moment is a lookup, it is the last question of all, and the exploration is
  given up if the callers were found, and fails with the method and the reply of
  that lookup if they were not. -/
theorem explore_heeds_stops (resolver : Resolver σ) (options : ExploreOptions)
    (entries : List Label) (session : Session σ) :
    let explored := explore resolver options entries session
    let asked := session.since explored.2
    session.Continues resolver asked explored.2 ∧
      (session.cancelled = true →
        asked = [] ∧ (entries ≠ [] → explored.1 = .error .cancelled)) ∧
      ∀ earlier moment later, resolver.moments session.state asked = earlier ++ moment :: later →
        resolver.trips moment = true →
        (∀ after ∈ later, after.query.lookup? = none) ∧
          ∀ method below, moment.query = .callers method below → later = [] ∧
            (∀ callers, (resolver.callers method moment.state).answer = .ok callers →
              explored.1 = .error .cancelled) ∧
            ∀ message, (resolver.callers method moment.state).answer = .error message →
              explored.1 = .error (.lookup method message (some message)) := by
  intro explored asked
  obtain ⟨talk, htalked⟩ := explore_talked resolver options entries session
  obtain rfl : asked = talk := htalked.continues.since_eq
  refine ⟨htalked.continues, fun hcancelled => ?_, ?_⟩
  · by_cases hentries : entries = []
    · subst hentries
      exact ⟨(Session.Continues.refl resolver session).since_eq, fun h => absurd rfl h⟩
    · have hgiven : explored = (.error .cancelled, session) :=
        explore_of_cancelled hcancelled hentries
      refine ⟨?_, fun _ => congrArg Prod.fst hgiven⟩
      change session.since explored.2 = []
      rw [hgiven]
      exact (Session.Continues.refl resolver session).since_eq
  · intro earlier moment later hmoments htrips
    have hheeds := htalked.heeds
    rw [hmoments] at hheeds
    exact ⟨hheeds.lookup?_eq_none_of_trips htrips,
      fun _ _ hquery => explore_of_tripping_lookup hmoments hquery htrips⟩

end CallerGraph
