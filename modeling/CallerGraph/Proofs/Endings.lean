import CallerGraph.Proofs.Dialogue
import CallerGraph.Proofs.Traversal

/-!
# How an exploration can end

Here nothing is known of the resolver: it may answer as it likes, remember what
it was asked, fail, and make somebody ask for a stop during any question.

`Talked` says what any stretch of an exploration looks like from the side of
the resolver.  Its questions go on from those before; no lookup is among them
once a stop was asked for; and there are three ways to end:

* it comes to its end, and then no lookup has failed;
* it stops because a stop was asked for, and then no lookup has failed either;
* its last question is a lookup that fails, the only one, and the error is that
  of the lookup.

Stretches can be put one behind the other, so it is enough to look at the single
steps.
-/

namespace CallerGraph

variable {σ : Type} {resolver : Resolver σ}

namespace Resolver

/-- Is nothing looked up once a stop was asked for, be it before the moments or
during one of them? -/
def Heeds (resolver : Resolver σ) : Bool → List (Moment σ) → Prop
  | _, [] => True
  | cancelled, moment :: moments =>
      (moment.query.lookup?.isSome = true → cancelled = false) ∧
        resolver.Heeds (cancelled || resolver.trips moment) moments

/-- Does no lookup fail? -/
def Succeeds (resolver : Resolver σ) (moments : List (Moment σ)) : Prop :=
  ∀ moment ∈ moments, resolver.failure? moment = none

/-- How a stretch with these moments can end, where `cancelled` says whether a
stop is asked for at the end, and the error is there unless the stretch came to
its end. -/
inductive Ends (resolver : Resolver σ) (cancelled : Bool) (moments : List (Moment σ)) :
    Option GraphError → Prop
  | done (hsucceeds : resolver.Succeeds moments) : Ends resolver cancelled moments none
  | stopped (hsucceeds : resolver.Succeeds moments) (hcancelled : cancelled = true) :
      Ends resolver cancelled moments (some .cancelled)
  | failed (before : List (Moment σ)) {last : Moment σ} {error : GraphError}
      (hmoments : moments = before ++ [last]) (hsucceeds : resolver.Succeeds before)
      (hfails : resolver.failure? last = some error) :
      Ends resolver cancelled moments (some error)

theorem heeds_append {cancelled : Bool} {moments more : List (Moment σ)} :
    resolver.Heeds cancelled (moments ++ more) ↔
      resolver.Heeds cancelled moments ∧
        resolver.Heeds (cancelled || moments.any resolver.trips) more := by
  induction moments generalizing cancelled with
  | nil => simp [Heeds]
  | cons moment moments ih =>
      rw [List.cons_append, Heeds, ih, Heeds, List.any_cons, Bool.or_assoc, and_assoc]

theorem succeeds_append {moments more : List (Moment σ)} :
    resolver.Succeeds (moments ++ more) ↔ resolver.Succeeds moments ∧ resolver.Succeeds more :=
  List.forall_mem_append

/-- Moments in which nothing fails can come before any ending. -/
theorem Ends.prepend {cancelled : Bool} {moments more : List (Moment σ)}
    {failure : Option GraphError} (hsucceeds : resolver.Succeeds moments)
    (h : resolver.Ends cancelled more failure) :
    resolver.Ends cancelled (moments ++ more) failure := by
  cases h with
  | done hmore => exact .done (succeeds_append.2 ⟨hsucceeds, hmore⟩)
  | stopped hmore hcancelled => exact .stopped (succeeds_append.2 ⟨hsucceeds, hmore⟩) hcancelled
  | failed before hmoments hbefore hfails =>
      refine .failed (moments ++ before) ?_ (succeeds_append.2 ⟨hsucceeds, hbefore⟩) hfails
      rw [hmoments, List.append_assoc]

/-- The errors of the moments are the errors of the ending. -/
theorem Ends.exists_failure_iff {cancelled : Bool} {moments : List (Moment σ)}
    {failure : Option GraphError} (h : resolver.Ends cancelled moments failure)
    {error : GraphError} :
    (∃ moment ∈ moments, resolver.failure? moment = some error) ↔
      failure = some error ∧ error ≠ .cancelled := by
  have hnever : ∀ moments, resolver.Succeeds moments →
      ¬ ∃ moment ∈ moments, resolver.failure? moment = some error := by
    intro moments hsucceeds h
    obtain ⟨moment, hmem, hfails⟩ := h
    rw [hsucceeds moment hmem] at hfails
    cases hfails
  cases h with
  | done hsucceeds => simp [hnever moments hsucceeds]
  | stopped hsucceeds _ =>
      refine iff_of_false (hnever moments hsucceeds) fun h => h.2 ?_
      exact (Option.some.inj h.1).symm
  | @failed before last known hmoments hsucceeds hfails =>
      constructor
      · intro h
        obtain ⟨moment, hmem, hother⟩ := h
        rw [hmoments, List.mem_append, List.mem_singleton] at hmem
        rcases hmem with hmem | rfl
        · exact absurd ⟨moment, hmem, hother⟩ (hnever before hsucceeds)
        · rw [hfails] at hother
          obtain rfl := Option.some.inj hother
          obtain ⟨method, below, message, -, -, rfl⟩ := failure?_eq_some_iff.1 hfails
          exact ⟨rfl, nofun⟩
      · intro h
        obtain ⟨herror, -⟩ := h
        obtain rfl := Option.some.inj herror
        exact ⟨last, by simp [hmoments], hfails⟩

/-- No lookup has failed unless the ending is the error of one. -/
theorem Ends.succeeds_iff {cancelled : Bool} {moments : List (Moment σ)}
    {failure : Option GraphError} (h : resolver.Ends cancelled moments failure) :
    resolver.Succeeds moments ↔ failure = none ∨ failure = some .cancelled := by
  cases h with
  | done hsucceeds => simp [hsucceeds]
  | stopped hsucceeds _ => simp [hsucceeds]
  | @failed before last error hmoments _ hfails =>
      have hlast : ¬ resolver.Succeeds moments := by
        intro hsucceeds
        rw [hsucceeds last (by simp [hmoments])] at hfails
        cases hfails
      obtain ⟨method, below, message, -, -, rfl⟩ := failure?_eq_some_iff.1 hfails
      simp [hlast, GraphError.lookupFailed]

/-- An error of exploring is a cancellation or that of a lookup. -/
theorem Ends.eq_cancelled_or_lookup {cancelled : Bool} {moments : List (Moment σ)}
    {error : GraphError} (h : resolver.Ends cancelled moments (some error)) :
    error = .cancelled ∨ ∃ method message, error = .lookupFailed method message := by
  cases h with
  | stopped => exact .inl rfl
  | failed _ _ _ hfails =>
      obtain ⟨method, -, message, -, -, rfl⟩ := failure?_eq_some_iff.1 hfails
      exact .inr ⟨method, message, rfl⟩

/-- Who asks only where callers come from looks nothing up and cannot fail. -/
theorem heeds_origins (cancelled : Bool) (state : σ) (callers : List Label) :
    resolver.Heeds cancelled (resolver.moments state (callers.map .origin)) := by
  induction callers generalizing cancelled state with
  | nil => trivial
  | cons caller callers ih => exact ⟨nofun, ih _ _⟩

theorem succeeds_origins (state : σ) (callers : List Label) :
    resolver.Succeeds (resolver.moments state (callers.map .origin)) := by
  induction callers generalizing state with
  | nil => simp [Succeeds]
  | cons caller callers ih => exact List.forall_mem_cons.2 ⟨rfl, ih _⟩

end Resolver

/-- A stretch of talk from one session to another, with the questions asked and
the error at its end if there was one. -/
structure Talked (resolver : Resolver σ) (before : Session σ) (asked : List Query)
    (after : Session σ) (failure : Option GraphError) : Prop where
  continues : before.Continues resolver asked after
  heeds : resolver.Heeds before.cancelled (resolver.moments before.state asked)
  ends : resolver.Ends after.cancelled (resolver.moments before.state asked) failure

namespace Talked

variable {before middle after : Session σ} {asked more : List Query}
  {failure : Option GraphError}

/-- Nothing asked and nothing gone wrong. -/
theorem silent (h : before.Continues resolver [] after) :
    Talked resolver before [] after none where
  continues := h
  heeds := trivial
  ends := .done (List.forall_mem_nil _)

/-- What has come to its end can be followed by anything. -/
theorem trans (hfirst : Talked resolver before asked middle none)
    (hthen : Talked resolver middle more after failure) :
    Talked resolver before (asked ++ more) after failure where
  continues := hfirst.continues.trans hthen.continues
  heeds := by
    rw [Resolver.moments_append, Resolver.heeds_append, ← hfirst.continues.cancelled,
      ← hfirst.continues.state]
    exact ⟨hfirst.heeds, hthen.heeds⟩
  ends := by
    cases hfirst.ends with
    | done hsucceeds =>
        rw [Resolver.moments_append, ← hfirst.continues.state]
        exact hthen.ends.prepend hsucceeds

end Talked

namespace Explore

/-- The exploration as a step leaves it, whether or not the step fails. -/
def leftBy {α : Type} : EStateM.Result GraphError (Exploration σ) α → Exploration σ
  | .ok _ found => found
  | .error _ found => found

/-- The error with which a step ends. -/
def failure? {α : Type} : EStateM.Result GraphError (Exploration σ) α → Option GraphError
  | .ok _ _ => none
  | .error error _ => some error

/-- A way to describe stretches of an exploration, by the session before, the
error at the end if there was one, and the session after.  It fits every stretch
in which nothing is asked, and what has come to its end can be followed by
anything. -/
structure Composes (resolver : Resolver σ)
    (describes : Session σ → Option GraphError → Session σ → Prop) : Prop where
  silent : ∀ {before after : Session σ}, before.Continues resolver [] after →
    describes before none after
  trans : ∀ {before middle after : Session σ} {failure : Option GraphError},
    describes before none middle → describes middle failure after → describes before failure after

/-- Does the description fit the step, wherever it starts? -/
def Along {α : Type} (describes : Session σ → Option GraphError → Session σ → Prop)
    (step : Explore σ α) : Prop :=
  ∀ found, describes found.session (failure? (step.run found)) (leftBy (step.run found)).session

section Along

variable {α β : Type} {describes : Session σ → Option GraphError → Session σ → Prop}

theorem Along.bind {step : Explore σ α} {next : α → Explore σ β}
    (hcomposes : Composes resolver describes) (hstep : Along describes step)
    (hnext : ∀ value, Along describes (next value)) : Along describes (step >>= next) := by
  intro found
  have hfirst := hstep found
  rw [EStateM.run_bind]
  cases hrun : step.run found with
  | error error middle =>
      rw [hrun] at hfirst
      exact hfirst
  | ok value middle =>
      rw [hrun] at hfirst
      exact hcomposes.trans hfirst (hnext value middle)

namespace Composes

theorem pure (h : Composes resolver describes) (value : α) :
    Along describes (Pure.pure value : Explore σ α) :=
  fun found => h.silent (.refl resolver found.session)

theorem forM (h : Composes resolver describes) {items : List α} {step : α → Explore σ PUnit}
    (hstep : ∀ item, Along describes (step item)) : Along describes (items.forM step) := by
  induction items with
  | nil => exact h.pure _
  | cons item items ih => exact (hstep item).bind h fun _ => ih

theorem tell (h : Composes resolver describes) (event : Event) :
    Along describes (tell event : Explore σ Unit) :=
  fun found => h.silent (found.session.continues_tell resolver _)

theorem register (h : Composes resolver describes) (entries : List Label) (method : Label) :
    Along describes (register entries method : Explore σ NodeId) :=
  fun found => h.silent (found.session.continues_tell resolver _)

theorem link (h : Composes resolver describes) (call : Call) :
    Along describes (link call : Explore σ Unit) :=
  fun found => h.silent (.refl resolver found.session)

/-- What fits the visits fits the turns of the loop that makes them. -/
theorem turn (h : Composes resolver describes) {options : ExploreOptions} {entries : List Label}
    {hops : Nat}
    (hvisit : ∀ below method, Along describes (visit resolver options entries hops below method))
    (below : List Label) (method : Label) (target : NodeId) (caller : Label) :
    Along describes (turn resolver options entries hops below method target caller) := by
  by_cases hmem : caller ∈ method :: below
  · rw [turn_of_mem hmem]
    refine (h.tell _).bind h fun _ => ?_
    split
    case isTrue => exact (h.register entries caller).bind h fun _ => h.link _
    case isFalse => exact h.pure _
  · rw [turn_of_not_mem hmem]
    refine (h.register entries caller).bind h fun _ => ?_
    exact (h.link _).bind h fun _ => hvisit _ _

/-- What fits the looks for a stop and the lookups fits the visits. -/
theorem visit (h : Composes resolver describes) {options : ExploreOptions}
    (hcheck : Along describes (check : Explore σ Unit))
    (hcallers : ∀ method below,
      Along describes (callersInScope resolver options.scope method below))
    (entries : List Label) (hops : Nat) (below : List Label) (method : Label) :
    Along describes (visit resolver options entries hops below method) := by
  induction hops generalizing below method with
  | zero => exact hcheck.bind h fun _ => (h.register entries method).bind h fun _ => h.pure _
  | succ hops ih =>
      rw [visit_succ]
      refine hcheck.bind h fun _ => (h.register entries method).bind h fun target => ?_
      refine (hcallers method below).bind h fun callers => ?_
      exact (h.tell _).bind h fun _ => h.forM fun caller => h.turn ih below method target caller

end Composes

end Along

/-- Is the step a stretch of talk, wherever it starts? -/
def Talks {α : Type} (resolver : Resolver σ) (step : Explore σ α) : Prop :=
  Along (fun before failure after => ∃ asked, Talked resolver before asked after failure) step

theorem composes_talked (resolver : Resolver σ) : Composes resolver
    fun before failure after => ∃ asked, Talked resolver before asked after failure where
  silent hsilent := ⟨[], .silent hsilent⟩
  trans := by
    intro before middle after failure hfirst hthen
    obtain ⟨asked, hasked⟩ := hfirst
    obtain ⟨more, hmore⟩ := hthen
    exact ⟨asked ++ more, hasked.trans hmore⟩

theorem run_check_of_cancelled {found : Exploration σ} (h : found.session.cancelled = true) :
    (check : Explore σ Unit).run found = .error .cancelled found := by
  simp [check, h]

theorem talks_check : Talks resolver (check : Explore σ Unit) := by
  intro found
  refine ⟨[], ?_⟩
  cases hcancelled : found.session.cancelled with
  | false =>
      rw [run_check hcancelled]
      exact .silent (.refl resolver found.session)
  | true =>
      rw [run_check_of_cancelled hcancelled]
      exact ⟨.refl resolver found.session, trivial, .stopped (List.forall_mem_nil _) hcancelled⟩

/-- What there is to a lookup with its screening.  A stop is heeded before the
lookup and directly after it; a failure counts even when a stop was asked for
meanwhile. -/
theorem run_callersInScope_eq (resolver : Resolver σ) (scope : Scope) (method : Label)
    (below : List Label) (found : Exploration σ) :
    (callersInScope resolver scope method below).run found =
      if found.session.cancelled then .error .cancelled found
      else
        let (answer, session) := found.session.askCallers resolver method below
        match answer with
        | .error message => .error (.lookupFailed method message) ⟨found.draft, session⟩
        | .ok callers =>
            if session.cancelled then .error .cancelled ⟨found.draft, session⟩
            else
              .ok (session.screen resolver scope callers.eraseDups).1
                ⟨found.draft, (session.screen resolver scope callers.eraseDups).2⟩ := by
  cases hbefore : found.session.cancelled with
  | true => simp [callersInScope, run_check_of_cancelled, hbefore]
  | false =>
      cases hanswer : (found.session.askCallers resolver method below).1 with
      | error message =>
          simp only [callersInScope, lookup, EStateM.run_bind, run_check hbefore,
            EStateM.run_modifyGet, hanswer]
          rfl
      | ok callers =>
          cases hafter : (found.session.askCallers resolver method below).2.cancelled with
          | true =>
              simp [callersInScope, lookup, run_check, run_check_of_cancelled, hbefore, hanswer,
                hafter]
          | false => simp [callersInScope, lookup, run_check, hbefore, hanswer, hafter]

/-- A lookup that comes to its end was asked while nobody had asked for a stop,
was answered, and nobody had asked for a stop directly after it. -/
theorem eq_ok_of_run_callersInScope {scope : Scope} {method : Label} {below accepted : List Label}
    {found left : Exploration σ}
    (h : (callersInScope resolver scope method below).run found = .ok accepted left) :
    found.session.cancelled = false ∧
      ∃ callers session, found.session.askCallers resolver method below = (.ok callers, session) ∧
        session.cancelled = false ∧
        accepted = (session.screen resolver scope callers.eraseDups).1 ∧
        left = ⟨found.draft, (session.screen resolver scope callers.eraseDups).2⟩ := by
  rw [run_callersInScope_eq] at h
  rcases hasked : found.session.askCallers resolver method below with ⟨answer, session⟩
  simp only [hasked] at h
  split at h
  case isTrue => cases h
  case isFalse hbefore =>
    cases answer with
    | error message => cases h
    | ok callers =>
        simp only at h
        split at h
        case isTrue => cases h
        case isFalse hafter =>
          cases h
          exact ⟨Bool.eq_false_of_not_eq_true hbefore, callers, session, rfl,
            Bool.eq_false_of_not_eq_true hafter, rfl, rfl⟩

/-- A lookup, whatever becomes of it: it is asked while nobody has asked for a
stop, and it fails if it is said to. -/
theorem talked_askCallers {session : Session σ} (hquiet : session.cancelled = false)
    (method : Label) (below : List Label) {failure : Option GraphError}
    (hends : resolver.Ends (session.askCallers resolver method below).2.cancelled
      [⟨session.state, .callers method below⟩] failure) :
    Talked resolver session [.callers method below]
      (session.askCallers resolver method below).2 failure where
  continues := session.continues_askCallers resolver method below
  heeds := ⟨fun _ => hquiet, trivial⟩
  ends := hends

/-- Screening is a stretch that comes to its end. -/
theorem talked_screen (resolver : Resolver σ) (scope : Scope) (callers : List Label)
    (session : Session σ) :
    Talked resolver session (callers.map .origin)
      (session.screen resolver scope callers).2 none where
  continues := session.continues_screen resolver scope callers
  heeds := Resolver.heeds_origins _ _ _
  ends := .done (Resolver.succeeds_origins _ _)

theorem talks_callersInScope (resolver : Resolver σ) (scope : Scope) (method : Label)
    (below : List Label) : Talks resolver (callersInScope resolver scope method below) := by
  intro found
  rw [run_callersInScope_eq]
  cases hquiet : found.session.cancelled with
  | true =>
      exact ⟨[], .refl resolver found.session, trivial,
        .stopped (List.forall_mem_nil _) hquiet⟩
  | false =>
      have hreply : (found.session.askCallers resolver method below).1 =
          (resolver.callers method found.session.state).answer := rfl
      cases hanswer : (found.session.askCallers resolver method below).1 with
      | error message =>
          have hfails : resolver.failure? ⟨found.session.state, .callers method below⟩ =
              some (.lookupFailed method message) := by
            simp only [Resolver.failure?, ← hreply, hanswer]
          simp only [hanswer]
          exact ⟨_, talked_askCallers hquiet method below
            (.failed [] rfl (List.forall_mem_nil _) hfails)⟩
      | ok callers =>
          have hsucceeds : resolver.Succeeds [⟨found.session.state, .callers method below⟩] := by
            simp [Resolver.Succeeds, Resolver.failure?, ← hreply, hanswer]
          simp only [hanswer]
          cases hafter : (found.session.askCallers resolver method below).2.cancelled with
          | true =>
              exact ⟨_, talked_askCallers hquiet method below (.stopped hsucceeds hafter)⟩
          | false =>
              exact ⟨_, (talked_askCallers hquiet method below (.done hsucceeds)).trans
                (talked_screen resolver scope _ _)⟩

section Visits

variable (resolver) (options : ExploreOptions) (entries : List Label)

/-- **Following one chain is a stretch of talk.** -/
theorem talks_visit (hops : Nat) (below : List Label) (method : Label) :
    Talks resolver (visit resolver options entries hops below method) :=
  (composes_talked resolver).visit talks_check
    (talks_callersInScope resolver options.scope) entries hops below method

theorem talks_visitEntries : Talks resolver (visitEntries resolver options entries) :=
  (composes_talked resolver).forM fun entry => talks_visit resolver options entries _ [] entry

end Visits

end Explore

/-- The error that a result is, if it is one. -/
def GraphError.of? {α : Type} : Except GraphError α → Option GraphError
  | .ok _ => none
  | .error error => some error

/-- What an exploration comes to, by how its visits end. -/
def Explore.concluded : EStateM.Result GraphError (Exploration σ) Unit →
    Except GraphError Draft × Session σ
  | .ok _ found => (.ok found.draft, found.session)
  | .error error found => (.error error, found.session)

theorem explore_eq_concluded (resolver : Resolver σ) (options : ExploreOptions)
    (entries : List Label) (session : Session σ) :
    explore resolver options entries session = Explore.concluded
      ((Explore.visitEntries resolver options entries).run ⟨.fresh options.colors, session⟩) := by
  unfold explore
  split
  case h_1 hrun => rw [hrun]; rfl
  case h_2 hrun => rw [hrun]; rfl

theorem Explore.of?_concluded (visited : EStateM.Result GraphError (Exploration σ) Unit) :
    GraphError.of? (concluded visited).1 = failure? visited := by
  cases visited <;> rfl

theorem Explore.session_concluded (visited : EStateM.Result GraphError (Exploration σ) Unit) :
    (concluded visited).2 = (leftBy visited).session := by
  cases visited <;> rfl

/-- **How explorations end.**  Whatever the resolver does, an exploration is a
stretch of talk. -/
theorem explore_talked (resolver : Resolver σ) (options : ExploreOptions) (entries : List Label)
    (session : Session σ) :
    ∃ asked, Talked resolver session asked (explore resolver options entries session).2
      (GraphError.of? (explore resolver options entries session).1) := by
  rw [explore_eq_concluded, Explore.of?_concluded, Explore.session_concluded]
  exact Explore.talks_visitEntries resolver options entries ⟨.fresh options.colors, session⟩

end CallerGraph
