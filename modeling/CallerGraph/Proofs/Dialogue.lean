import CallerGraph.Exploration.Explore

/-!
# The talk with a resolver, replayed

A session lists the questions that a resolver was asked, and not its replies.
They are not lost: a reply depends on the question and on the state that the
resolver is in, so from the state before the first question all of them can be
had again.  A moment is a question with the state in which it finds the
resolver, and `Resolver.moments` are the moments of questions asked one after
the other.

`Session.Continues` says that a session is an earlier one with some questions
more: they stand behind the earlier ones, the resolver is in the state that
they leave behind, and a stop was asked for if it had been before or was during
one of them.
-/

namespace CallerGraph

variable {σ : Type}

/-- A question, with the state in which it finds the resolver. -/
structure Moment (σ : Type) where
  state : σ
  query : Query

namespace Resolver

/-- The state that a question leaves behind. -/
def next (resolver : Resolver σ) (state : σ) : Query → σ
  | .callers method _ => (resolver.callers method state).state
  | .origin caller => (resolver.origin caller state).state

/-- Is a stop asked for during the moment? -/
def trips (resolver : Resolver σ) (moment : Moment σ) : Bool :=
  match moment.query with
  | .callers method _ => (resolver.callers method moment.state).trips
  | .origin caller => (resolver.origin caller moment.state).trips

/-- The error of the moment, if it is a lookup that fails. -/
def failure? (resolver : Resolver σ) (moment : Moment σ) : Option GraphError :=
  match moment.query with
  | .callers method _ =>
      match (resolver.callers method moment.state).answer with
      | .ok _ => none
      | .error message => some (.lookupFailed method message)
  | .origin _ => none

/-- The state behind questions asked one after the other. -/
def stateAfter (resolver : Resolver σ) (state : σ) (asked : List Query) : σ :=
  asked.foldl resolver.next state

/-- The moments of questions asked one after the other. -/
def moments (resolver : Resolver σ) : σ → List Query → List (Moment σ)
  | _, [] => []
  | state, query :: asked => ⟨state, query⟩ :: moments resolver (resolver.next state query) asked

variable {resolver : Resolver σ}

@[simp] theorem stateAfter_nil (state : σ) : resolver.stateAfter state [] = state := rfl

theorem stateAfter_append (state : σ) (asked more : List Query) :
    resolver.stateAfter state (asked ++ more) =
      resolver.stateAfter (resolver.stateAfter state asked) more :=
  List.foldl_append

@[simp] theorem moments_nil (state : σ) : resolver.moments state [] = [] := rfl

theorem moments_append (state : σ) (asked more : List Query) :
    resolver.moments state (asked ++ more) =
      resolver.moments state asked ++
        resolver.moments (resolver.stateAfter state asked) more := by
  induction asked generalizing state with
  | nil => rfl
  | cons query asked ih =>
      rw [List.cons_append, moments, ih]
      rfl

/-- The questions of the moments are the questions. -/
theorem map_query_moments (state : σ) (asked : List Query) :
    (resolver.moments state asked).map Moment.query = asked := by
  induction asked generalizing state with
  | nil => rfl
  | cons query asked ih => rw [moments, List.map_cons, ih]

/-- What a moment fails with names the method that is looked up and says what
the reply says. -/
theorem failure?_eq_some_iff {moment : Moment σ} {error : GraphError} :
    resolver.failure? moment = some error ↔
      ∃ method below message, moment.query = .callers method below ∧
        (resolver.callers method moment.state).answer = .error message ∧
        error = .lookupFailed method message := by
  obtain ⟨state, query⟩ := moment
  constructor
  · intro h
    cases query with
    | origin caller => cases h
    | callers method below =>
        cases hanswer : (resolver.callers method state).answer with
        | ok callers => simp [failure?, hanswer] at h
        | error message =>
            simp only [failure?, hanswer, Option.some.injEq] at h
            exact ⟨method, below, message, rfl, hanswer, h.symm⟩
  · intro h
    obtain ⟨method, below, message, rfl, hanswer, rfl⟩ := h
    simp only [failure?, hanswer]

theorem failure?_eq_lookup_iff {moment : Moment σ} {method : Label} {detail : String}
    {cause : Option String} :
    resolver.failure? moment = some (.lookup method detail cause) ↔
      ∃ below, moment.query = .callers method below ∧
        (resolver.callers method moment.state).answer = .error detail ∧ cause = some detail := by
  rw [failure?_eq_some_iff]
  constructor
  · intro h
    obtain ⟨looked, below, message, hquery, hanswer, herror⟩ := h
    obtain ⟨rfl, rfl, rfl⟩ := GraphError.lookup.inj herror
    exact ⟨below, hquery, hanswer, rfl⟩
  · intro h
    obtain ⟨below, hquery, hanswer, rfl⟩ := h
    exact ⟨method, below, detail, hquery, hanswer, rfl⟩

theorem failure?_eq_none_iff {moment : Moment σ} :
    resolver.failure? moment = none ↔ ∀ method below, moment.query = .callers method below →
      ∃ callers, (resolver.callers method moment.state).answer = .ok callers := by
  obtain ⟨state, query⟩ := moment
  cases query with
  | origin caller => simp [failure?]
  | callers method below =>
      cases hanswer : (resolver.callers method state).answer with
      | ok callers =>
          simp only [failure?, hanswer, Query.callers.injEq, true_iff]
          intro _ _ h
          obtain ⟨rfl, -⟩ := h
          exact ⟨callers, hanswer⟩
      | error message => simp [failure?, hanswer]

end Resolver

namespace Session

variable {resolver : Resolver σ} {before middle after : Session σ}
  {asked more : List Query}

/-- `after` is `before` with the questions `asked` more. -/
structure Continues (resolver : Resolver σ) (before : Session σ) (asked : List Query)
    (after : Session σ) : Prop where
  queries : after.queries.toList = before.queries.toList ++ asked
  state : after.state = resolver.stateAfter before.state asked
  cancelled : after.cancelled =
    (before.cancelled || (resolver.moments before.state asked).any resolver.trips)

theorem Continues.refl (resolver : Resolver σ) (session : Session σ) :
    session.Continues resolver [] session := by
  constructor <;> simp

theorem Continues.trans (hfirst : before.Continues resolver asked middle)
    (hthen : middle.Continues resolver more after) :
    before.Continues resolver (asked ++ more) after where
  queries := by rw [hthen.queries, hfirst.queries, List.append_assoc]
  state := by rw [hthen.state, hfirst.state, Resolver.stateAfter_append]
  cancelled := by
    rw [hthen.cancelled, hfirst.cancelled, hfirst.state, Resolver.moments_append,
      List.any_append, Bool.or_assoc]

@[simp] theorem tell_nil (session : Session σ) : session.tell [] = session := by
  simp [tell]

@[simp] theorem tell_tell (session : Session σ) (events more : List Event) :
    (session.tell events).tell more = session.tell (events ++ more) := by
  simp only [tell, ← Array.toList_inj, Array.toList_appendList, List.append_assoc, Session.mk.injEq,
    true_and]

/-- What is told is no part of the talk. -/
theorem continues_tell (resolver : Resolver σ) (session : Session σ) (events : List Event) :
    session.Continues resolver [] (session.tell events) := by
  constructor <;> simp [tell]

/-- The questions that came after those of an earlier session. -/
def since (before after : Session σ) : List Query :=
  after.queries.toList.drop before.queries.size

theorem Continues.since_eq (h : before.Continues resolver asked after) :
    before.since after = asked := by
  rw [since, h.queries, ← Array.length_toList, List.drop_left]

@[simp] theorem state_askOrigin (session : Session σ) (caller : Label) :
    (session.askOrigin resolver caller).2.state =
      resolver.next session.state (.origin caller) := rfl

theorem continues_askCallers (resolver : Resolver σ) (session : Session σ) (method : Label)
    (below : List Label) :
    session.Continues resolver [.callers method below]
      (session.askCallers resolver method below).2 := by
  constructor <;> simp [askCallers, heard, Resolver.stateAfter, Resolver.next, Resolver.moments,
    Resolver.trips]

theorem continues_askOrigin (resolver : Resolver σ) (session : Session σ) (caller : Label) :
    session.Continues resolver [.origin caller] (session.askOrigin resolver caller).2 := by
  constructor <;> simp [askOrigin, heard, Resolver.stateAfter, Resolver.next, Resolver.moments,
    Resolver.trips]

/-- Screening asks where each caller comes from, in order. -/
theorem continues_screen (resolver : Resolver σ) (scope : Scope) (callers : List Label)
    (session : Session σ) :
    session.Continues resolver (callers.map .origin)
      (screen resolver scope callers session).2 := by
  induction callers generalizing session with
  | nil => exact .refl resolver session
  | cons caller callers ih => exact (continues_askOrigin resolver session caller).trans (ih _)

/-- The callers that pass a screening are those whose origin, as it was told
in its moment, is in scope. -/
theorem mem_screen {scope : Scope} {callers : List Label} {session : Session σ} {caller : Label} :
    caller ∈ (screen resolver scope callers session).1 ↔
      ∃ state, ⟨state, .origin caller⟩ ∈
          resolver.moments session.state (callers.map .origin) ∧
        scope.accepts (resolver.origin caller state).answer = true := by
  induction callers generalizing session with
  | nil => simp [screen]
  | cons first callers ih =>
      have hrest := @ih (session.askOrigin resolver first).2
      rw [state_askOrigin] at hrest
      have hfirst : (∃ state, (state = session.state ∧ caller = first) ∧
          scope.accepts (resolver.origin caller state).answer = true) ↔
          caller = first ∧ scope.accepts (session.askOrigin resolver first).1 = true := by
        constructor
        · intro h
          obtain ⟨_, ⟨rfl, rfl⟩, haccepts⟩ := h
          exact ⟨rfl, haccepts⟩
        · intro h
          obtain ⟨rfl, haccepts⟩ := h
          exact ⟨_, ⟨rfl, rfl⟩, haccepts⟩
      simp only [screen, List.map_cons, Resolver.moments, List.mem_cons, Moment.mk.injEq,
        Query.origin.injEq, or_and_right, exists_or, hfirst]
      rw [← hrest]
      by_cases haccepts : scope.accepts (session.askOrigin resolver first).1 = true
      · rw [if_pos haccepts, List.mem_cons, and_iff_left haccepts]
      · rw [if_neg haccepts, iff_or_self]
        exact fun h => absurd h.2 haccepts

end Session

end CallerGraph
