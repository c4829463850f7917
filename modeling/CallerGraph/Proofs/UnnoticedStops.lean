import CallerGraph.Analysis
import CallerGraph.Proofs.Endings

/-!
# Stops that go unnoticed

An exploration looks whether a stop was asked for before it registers a method
at the end of a chain, before a lookup and directly after it.  It does not look
after it has asked where the callers come from, so a stop that is asked for
meanwhile is noticed only if there is something to follow afterwards.

`Resolver.Overlooks` describes the one kind of talk that ends with a stop that
nobody notices: it ends with a lookup and the screening of its callers, no stop
was asked for up to the lookup and during it, and of the callers that are in
scope every one closes a cycle.  `explore_of_stop` says that nothing else can
happen, except that there are no entries and so nothing to do at all.

The draft is complete all the same.  `Resolver.hushed` is the resolver with nobody
who could ask for a stop, and a run that comes to its end comes to the same end
with it.
-/

namespace CallerGraph

variable {σ : Type} {resolver : Resolver σ} {scope : Scope}

/-- Is the end of the talk a lookup, with a screening in which a stop can be
asked for without being noticed? -/
def Resolver.Overlooks (resolver : Resolver σ) (scope : Scope) (state : σ)
    (asked : List Query) : Prop :=
  ∃ earlier method below callers,
    asked = earlier ++ [.callers method below] ++ callers.eraseDups.map .origin ∧
    (resolver.callers method (resolver.stateAfter state earlier)).answer = .ok callers ∧
    (resolver.moments state (earlier ++ [.callers method below])).any resolver.trips = false ∧
    ∀ moment ∈ resolver.moments (resolver.stateAfter state (earlier ++ [.callers method below]))
        (callers.eraseDups.map .origin),
      ∀ caller, moment.query = .origin caller →
        scope.accepts (resolver.origin caller moment.state).answer = true →
        caller ∈ method :: below

/-- What was asked without a stop can come before. -/
theorem Resolver.Overlooks.prepend {state : σ} {asked more : List Query}
    (hquiet : (resolver.moments state asked).any resolver.trips = false)
    (h : resolver.Overlooks scope (resolver.stateAfter state asked) more) :
    resolver.Overlooks scope state (asked ++ more) := by
  obtain ⟨earlier, method, below, callers, rfl, hanswer, hbefore, hclose⟩ := h
  refine ⟨asked ++ earlier, method, below, callers, ?_, ?_, ?_, ?_⟩
  · simp only [List.append_assoc]
  · rw [Resolver.stateAfter_append]
    exact hanswer
  · rw [List.append_assoc, Resolver.moments_append, List.any_append, hquiet, hbefore]
    rfl
  · rw [List.append_assoc, Resolver.stateAfter_append]
    exact hclose

/-- A talk at the end of which a stop is asked for only if it was from the
beginning, with nothing asked since, or if it was overlooked. -/
structure Unnoticed (resolver : Resolver σ) (scope : Scope) (before : Session σ)
    (asked : List Query) (after : Session σ) : Prop where
  continues : before.Continues resolver asked after
  overlooks : after.cancelled = true →
    before.cancelled = true ∧ asked = [] ∨
      before.cancelled = false ∧ resolver.Overlooks scope before.state asked

namespace Unnoticed

variable {before middle after : Session σ} {asked more : List Query}

/-- Nothing asked. -/
theorem silent (h : before.Continues resolver [] after) :
    Unnoticed resolver scope before [] after where
  continues := h
  overlooks hafter := by
    rw [h.cancelled] at hafter
    exact .inl ⟨by simpa using hafter, rfl⟩

theorem trans (hfirst : Unnoticed resolver scope before asked middle)
    (hthen : Unnoticed resolver scope middle more after) :
    Unnoticed resolver scope before (asked ++ more) after where
  continues := hfirst.continues.trans hthen.continues
  overlooks hafter := by
    obtain ⟨hmiddle, rfl⟩ | ⟨hmiddle, hoverlooks⟩ := hthen.overlooks hafter
    · rw [List.append_nil]
      exact hfirst.overlooks hmiddle
    · have hnone := hfirst.continues.cancelled
      rw [hmiddle, eq_comm, Bool.or_eq_false_iff] at hnone
      rw [hfirst.continues.state] at hoverlooks
      exact .inr ⟨hnone.1, hoverlooks.prepend hnone.2⟩

end Unnoticed

namespace Explore

/-- Is a stop unnoticed by the step only in the ways that there are? -/
def Passes {α : Type} (resolver : Resolver σ) (scope : Scope) (step : Explore σ α) : Prop :=
  Along (fun before failure after =>
    failure = none → ∃ asked, Unnoticed resolver scope before asked after) step

theorem composes_unnoticed (resolver : Resolver σ) (scope : Scope) : Composes resolver
    fun before failure after =>
      failure = none → ∃ asked, Unnoticed resolver scope before asked after where
  silent hsilent _ := ⟨[], .silent hsilent⟩
  trans := by
    intro before middle after failure hfirst hthen hnone
    obtain ⟨asked, hasked⟩ := hfirst rfl
    obtain ⟨more, hmore⟩ := hthen hnone
    exact ⟨asked ++ more, hasked.trans hmore⟩

theorem passes_of_ok {α : Type} {step : Explore σ α}
    (h : ∀ found value left, step.run found = .ok value left →
      ∃ asked, Unnoticed resolver scope found.session asked left.session) :
    Passes resolver scope step := by
  intro found hnone
  cases hrun : step.run found with
  | error error left =>
      rw [hrun] at hnone
      cases hnone
  | ok value left => exact h found value left hrun

theorem Passes.of_run {α : Type} {step : Explore σ α} (h : Passes resolver scope step)
    {found left : Exploration σ} {value : α} (hrun : step.run found = .ok value left) :
    ∃ asked, Unnoticed resolver scope found.session asked left.session := by
  have hpasses := h found
  rw [hrun] at hpasses
  exact hpasses rfl

theorem run_bind_eq_ok_iff {α β : Type} {step : Explore σ α} {next : α → Explore σ β} {value : β}
    {found left : Exploration σ} :
    (step >>= next).run found = .ok value left ↔
      ∃ between middle, step.run found = .ok between middle ∧
        (next between).run middle = .ok value left := by
  rw [EStateM.run_bind]
  cases step.run found <;> simp

/-- A check that comes to its end has found that nobody asked for a stop. -/
theorem eq_of_run_check {found left : Exploration σ} {value : Unit}
    (h : (check : Explore σ Unit).run found = .ok value left) :
    found.session.cancelled = false ∧ left = found := by
  cases hcancelled : found.session.cancelled with
  | true =>
      rw [run_check_of_cancelled hcancelled] at h
      cases h
  | false =>
      rw [run_check hcancelled] at h
      cases h
      exact ⟨rfl, rfl⟩

section Visits

variable {options : ExploreOptions} {entries : List Label} {hops : Nat} {below : List Label}
  {method : Label} {target : NodeId}

/-- A visit that comes to its end was begun while nobody had asked for a stop. -/
theorem quiet_of_run_visit {found left : Exploration σ} {value : Unit}
    (h : (visit resolver options entries hops below method).run found = .ok value left) :
    found.session.cancelled = false := by
  cases hops with
  | zero =>
      obtain ⟨_, _, hcheck, -⟩ := run_bind_eq_ok_iff.1 h
      exact (eq_of_run_check hcheck).1
  | succ hops =>
      rw [visit_succ] at h
      obtain ⟨_, _, hcheck, -⟩ := run_bind_eq_ok_iff.1 h
      exact (eq_of_run_check hcheck).1

/-- A loop that is begun after a stop was asked for and comes to its end has
nothing to follow. -/
theorem mem_of_run_turns {callers : List Label} {found left : Exploration σ} {value : Unit}
    (hcancelled : found.session.cancelled = true)
    (h : (callers.forM (turn resolver options entries hops below method target)).run found =
      .ok value left) :
    ∀ caller ∈ callers, caller ∈ method :: below := by
  induction callers generalizing found with
  | nil => exact List.forall_mem_nil _
  | cons caller callers ih =>
      obtain ⟨_, middle, hturn, hrest⟩ := run_bind_eq_ok_iff.1 h
      by_cases hmem : caller ∈ method :: below
      · have hmiddle : middle.session.cancelled = true := by
          cases hcycles : options.cycles with
          | drop =>
              rw [run_turn_drop hmem hcycles] at hturn
              cases hturn
              exact hcancelled
          | mark =>
              rw [run_turn_mark hmem hcycles] at hturn
              cases hturn
              exact hcancelled
        exact List.forall_mem_cons.2 ⟨hmem, ih hmiddle hrest⟩
      · rw [run_turn_of_not_mem hmem] at hturn
        exact absurd (quiet_of_run_visit hturn) (ne_false_of_eq_true hcancelled)

/-- A lookup with its screening, when all callers that are in scope close a
cycle unless nobody has asked for a stop. -/
theorem unnoticed_callersInScope {accepted : List Label} {found left : Exploration σ}
    (hrun : (callersInScope resolver scope method below).run found = .ok accepted left)
    (hclose : left.session.cancelled = true → ∀ caller ∈ accepted, caller ∈ method :: below) :
    ∃ asked, Unnoticed resolver scope found.session asked left.session := by
  obtain ⟨hbefore, callers, session, hasked, hafter, rfl, rfl⟩ := eq_ok_of_run_callersInScope hrun
  have hsession : session = (found.session.askCallers resolver method below).2 := by rw [hasked]
  have hlookup : found.session.Continues resolver [.callers method below] session :=
    hsession ▸ found.session.continues_askCallers resolver method below
  have hscreen := session.continues_screen resolver scope callers.eraseDups
  refine ⟨_, hlookup.trans hscreen, fun hcancelled => .inr ⟨hbefore, ?_⟩⟩
  refine ⟨[], method, below, callers, rfl, congrArg Prod.fst hasked, ?_, ?_⟩
  · have hnone := hlookup.cancelled
    rw [hafter, hbefore, Bool.false_or] at hnone
    exact hnone.symm
  · intro moment hmoment caller hquery haccepts
    rw [List.nil_append, ← hlookup.state] at hmoment
    refine hclose hcancelled caller (Session.mem_screen.2 ⟨moment.state, ?_, haccepts⟩)
    rw [← hquery]
    exact hmoment

theorem passes_visit : Passes resolver options.scope
    (visit resolver options entries hops below method) := by
  have h := composes_unnoticed resolver options.scope
  have hcheck : Passes resolver options.scope (check : Explore σ Unit) := by
    refine passes_of_ok fun found value left hrun => ?_
    obtain ⟨-, rfl⟩ := eq_of_run_check hrun
    exact ⟨[], .silent (.refl resolver _)⟩
  induction hops generalizing below method with
  | zero => exact hcheck.bind h fun _ => (h.register entries method).bind h fun _ => h.pure _
  | succ hops ih =>
      rw [visit_succ]
      refine hcheck.bind h fun _ => (h.register entries method).bind h fun target => ?_
      refine passes_of_ok fun found value left hrun => ?_
      obtain ⟨accepted, middle, hcallers, hrest⟩ := run_bind_eq_ok_iff.1 hrun
      have hloop : Passes resolver options.scope (do
          tell (.expanding method accepted.length below.length)
          accepted.forM (turn resolver options entries hops below method target)) :=
        (h.tell _).bind h fun _ => h.forM fun caller =>
          h.turn (fun _ _ => ih) below method target caller
      obtain ⟨more, hmore⟩ := hloop.of_run hrest
      obtain ⟨asked, hasked⟩ := unnoticed_callersInScope hcallers fun hcancelled => by
        obtain ⟨_, told, htell, hturns⟩ := run_bind_eq_ok_iff.1 hrest
        cases htell
        refine mem_of_run_turns ?_ hturns
        exact hcancelled
      exact ⟨_, hasked.trans hmore⟩

end Visits

end Explore

/-- The resolver, with nobody who could ask for a stop. -/
def Resolver.hushed (resolver : Resolver σ) : Resolver σ where
  callers method state := { resolver.callers method state with trips := false }
  origin caller state := { resolver.origin caller state with trips := false }
  span := resolver.span

/-- The session, as if nobody had asked for a stop. -/
def Session.hushed (session : Session σ) : Session σ :=
  { session with cancelled := false }

/-- The exploration, as if nobody had asked for a stop. -/
def Exploration.hushed (found : Exploration σ) : Exploration σ :=
  ⟨found.draft, found.session.hushed⟩

theorem Session.askCallers_hushed (session : Session σ) (method : Label) (below : List Label) :
    session.hushed.askCallers resolver.hushed method below =
      ((session.askCallers resolver method below).1,
        (session.askCallers resolver method below).2.hushed) := rfl

theorem Session.screen_hushed (callers : List Label) (session : Session σ) :
    screen resolver.hushed scope callers session.hushed =
      ((screen resolver scope callers session).1,
        (screen resolver scope callers session).2.hushed) := by
  induction callers generalizing session with
  | nil => rfl
  | cons caller callers ih =>
      have hasked : session.hushed.askOrigin resolver.hushed caller =
          ((session.askOrigin resolver caller).1,
            (session.askOrigin resolver caller).2.hushed) := rfl
      simp only [screen, hasked, ih]

namespace Explore

/-- Does the other step come to the same end whenever the step comes to its end,
as if nobody had asked for a stop? -/
def Hushes {α : Type} (step other : Explore σ α) : Prop :=
  ∀ found value left, step.run found = .ok value left →
    other.run found.hushed = .ok value left.hushed

section Hushes

variable {α β : Type}

theorem Hushes.bind {step other : Explore σ α} {next following : α → Explore σ β}
    (hstep : Hushes step other) (hnext : ∀ value, Hushes (next value) (following value)) :
    Hushes (step >>= next) (other >>= following) := by
  intro found value left hrun
  obtain ⟨between, middle, hfirst, hthen⟩ := run_bind_eq_ok_iff.1 hrun
  exact run_bind_eq_ok_iff.2
    ⟨between, middle.hushed, hstep _ _ _ hfirst, hnext _ _ _ _ hthen⟩

theorem hushes_pure (value : α) : Hushes (pure value : Explore σ α) (pure value) := by
  intro found value left hrun
  cases hrun
  rfl

theorem hushes_forM {items : List α} {step other : α → Explore σ PUnit}
    (hstep : ∀ item, Hushes (step item) (other item)) :
    Hushes (items.forM step) (items.forM other) := by
  induction items with
  | nil => exact hushes_pure _
  | cons item items ih => exact (hstep item).bind fun _ => ih

theorem hushes_check : Hushes (check : Explore σ Unit) check := by
  intro found value left hrun
  obtain ⟨-, rfl⟩ := eq_of_run_check hrun
  exact run_check rfl

theorem hushes_tell (event : Event) : Hushes (tell event : Explore σ Unit) (tell event) := by
  intro found value left hrun
  cases hrun
  rfl

theorem hushes_register (entries : List Label) (method : Label) :
    Hushes (register entries method : Explore σ NodeId) (register entries method) := by
  intro found value left hrun
  cases hrun
  rfl

theorem hushes_link (call : Call) : Hushes (link call : Explore σ Unit) (link call) := by
  intro found value left hrun
  cases hrun
  rfl

end Hushes

theorem hushes_callersInScope (method : Label) (below : List Label) :
    Hushes (callersInScope resolver scope method below)
      (callersInScope resolver.hushed scope method below) := by
  intro found accepted left hrun
  obtain ⟨-, callers, session, hasked, -, rfl, rfl⟩ := eq_ok_of_run_callersInScope hrun
  rw [run_callersInScope_eq]
  simp only [Exploration.hushed, Session.askCallers_hushed, hasked, Session.screen_hushed]
  rfl

variable {options : ExploreOptions} {entries : List Label}

theorem hushes_visit (hops : Nat) (below : List Label) (method : Label) :
    Hushes (visit resolver options entries hops below method)
      (visit resolver.hushed options entries hops below method) := by
  induction hops generalizing below method with
  | zero =>
      exact hushes_check.bind fun _ => (hushes_register entries method).bind fun _ => hushes_pure _
  | succ hops ih =>
      rw [visit_succ, visit_succ]
      refine hushes_check.bind fun _ => (hushes_register entries method).bind fun target => ?_
      refine (hushes_callersInScope method below).bind fun callers => ?_
      refine (hushes_tell _).bind fun _ => hushes_forM fun caller => ?_
      by_cases hmem : caller ∈ method :: below
      · rw [turn_of_mem hmem, turn_of_mem hmem]
        refine (hushes_tell _).bind fun _ => ?_
        split
        case isTrue => exact (hushes_register entries caller).bind fun _ => hushes_link _
        case isFalse => exact hushes_pure _
      · rw [turn_of_not_mem hmem, turn_of_not_mem hmem]
        refine (hushes_register entries caller).bind fun _ => (hushes_link _).bind fun _ => ?_
        exact ih (method :: below) caller

theorem passes_visitEntries :
    Passes resolver options.scope (visitEntries resolver options entries) :=
  (composes_unnoticed resolver options.scope).forM fun _ => passes_visit

theorem hushes_visitEntries : Hushes (visitEntries resolver options entries)
    (visitEntries resolver.hushed options entries) :=
  hushes_forM fun entry => hushes_visit _ [] entry

end Explore

variable {options : ExploreOptions} {entries : List Label} {session : Session σ}

/-- An exploration with a draft has visited all entries. -/
theorem run_of_explore {draft : Draft}
    (hok : (explore resolver options entries session).1 = .ok draft) :
    (Explore.visitEntries resolver options entries).run ⟨.fresh options.colors, session⟩ =
      .ok () ⟨draft, (explore resolver options entries session).2⟩ := by
  rw [explore_eq_concluded] at hok ⊢
  generalize (Explore.visitEntries resolver options entries).run ⟨.fresh options.colors, session⟩ =
    visited at hok
  cases visited with
  | error error found => cases hok
  | ok value found =>
      cases hok
      rfl

/-- What comes to its end does so as if nobody had asked for a stop: nothing is
missing from the draft. -/
theorem explore_hushed {draft : Draft}
    (hok : (explore resolver options entries session).1 = .ok draft) :
    explore resolver.hushed options entries session.hushed =
      (.ok draft, (explore resolver options entries session).2.hushed) := by
  have hhushed := Explore.hushes_visitEntries _ _ _ (run_of_explore hok)
  change (Explore.visitEntries resolver.hushed options entries).run
    ⟨.fresh options.colors, session.hushed⟩ = _ at hhushed
  rw [explore_eq_concluded, hhushed]
  rfl

/-- With an entry to visit, what comes to its end was begun while nobody had
asked for a stop. -/
theorem quiet_of_explore {draft : Draft} (hentries : entries ≠ [])
    (hok : (explore resolver options entries session).1 = .ok draft) :
    session.cancelled = false := by
  obtain ⟨entry, rest, rfl⟩ := List.exists_cons_of_ne_nil hentries
  obtain ⟨_, _, hvisit, -⟩ := Explore.run_bind_eq_ok_iff.1 (run_of_explore hok)
  exact Explore.quiet_of_run_visit hvisit

/-- **How a stop goes unnoticed.**  Suppose a stop is asked for by the end of an
exploration.  Either there is an error, the cancellation or that of a lookup.
Or there is a draft, and then

* there were no entries and the stop was asked for before, or nobody had asked
  for one up to the last lookup and during it, and all callers that passed the
  screening after it close a cycle;
* the draft is the one that there would be if nobody had asked for a stop. -/
theorem explore_of_stop (hstop : (explore resolver options entries session).2.cancelled = true) :
    let explored := explore resolver options entries session
    let asked := session.since explored.2
    (∃ error, explored.1 = .error error ∧
      resolver.Ends true (resolver.moments session.state asked) (some error)) ∨
    ∃ draft, explored.1 = .ok draft ∧
      (entries = [] ∧ session.cancelled = true ∨
        session.cancelled = false ∧ resolver.Overlooks options.scope session.state asked) ∧
      explore resolver.hushed options entries session.hushed = (.ok draft, explored.2.hushed) := by
  intro explored asked
  obtain ⟨talk, htalked⟩ := explore_talked resolver options entries session
  have hsince : asked = talk := htalked.continues.since_eq
  have hends := htalked.ends
  rw [hstop, ← hsince] at hends
  cases hresult : explored.1 with
  | error error =>
      refine .inl ⟨error, rfl, ?_⟩
      change resolver.Ends true _ (GraphError.of? explored.1) at hends
      rwa [hresult] at hends
  | ok draft =>
      refine .inr ⟨draft, rfl, ?_, explore_hushed hresult⟩
      obtain ⟨talk, hunnoticed⟩ := Explore.passes_visitEntries.of_run (run_of_explore hresult)
      rw [show asked = talk from hunnoticed.continues.since_eq]
      obtain ⟨hcancelled, -⟩ | hoverlooks := hunnoticed.overlooks hstop
      · refine .inl ⟨not_not.1 fun hentries => ?_, hcancelled⟩
        exact absurd (quiet_of_explore hentries hresult) (ne_false_of_eq_true hcancelled)
      · exact .inr hoverlooks

/-- A source that knows `t`, a test, as the caller of everything, and where
somebody asks for a stop while it is asked where `t` comes from. -/
def latecomer : Resolver Unit where
  callers _ _ := ⟨.ok [⟨"t"⟩], (), false⟩
  origin _ _ := ⟨.test, (), true⟩
  span := 1

/-- What production code calls `m`? -/
def latecomerRequest : Request where
  entries := [⟨"m"⟩]
  sink := ⟨"out", "graph"⟩
  pruned := false
  options := ⟨.productionOnly, .drop, none, .ofWords (.scripted #[])⟩

/-- What becomes of exploring it. -/
def latecomerExplored : Except GraphError Draft × Session Unit :=
  explore latecomer latecomerRequest.options latecomerRequest.entries (.start () false)

/-- Nobody looks again after `t` has turned out to be a test, and there is a draft
and a graph although a stop was asked for. -/
theorem stop_unnoticed_latecomer :
    (∃ draft, latecomerExplored.1 = .ok draft) ∧ latecomerExplored.2.cancelled = true ∧
      (∃ graph, (buildGraph latecomer latecomerRequest (.start () false)).1 = .ok graph) ∧
      (buildGraph latecomer latecomerRequest (.start () false)).2.cancelled = true :=
  ⟨⟨_, rfl⟩, rfl, ⟨_, rfl⟩, rfl⟩

/-- The stop is asked for during the last question, and is overlooked. -/
theorem explore_of_stop_latecomer :
    latecomerExplored.2.cancelled = true ∧
      (Session.start () false).since latecomerExplored.2 =
        [.callers ⟨"m"⟩ [], .origin ⟨"t"⟩] ∧
      latecomer.Overlooks .productionOnly () [.callers ⟨"m"⟩ [], .origin ⟨"t"⟩] := by
  have hstop : latecomerExplored.2.cancelled = true := rfl
  refine ⟨hstop, rfl, ?_⟩
  obtain ⟨error, herror, -⟩ | ⟨draft, -, ⟨hnone, -⟩ | ⟨-, hoverlooks⟩, -⟩ :=
    explore_of_stop hstop
  · cases herror
  · cases hnone
  · exact hoverlooks

end CallerGraph
