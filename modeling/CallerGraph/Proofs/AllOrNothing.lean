import CallerGraph.Analysis
import CallerGraph.Proofs.Endings

/-!
# All or nothing

An analysis explores, finishes the graph and hands it to a target.  To see what
a target is given, it is watched: `Target.watched` does what the target does and
keeps a list of the graphs that were handed over, each with its sink and with
what the target answered.

`analyse_all_or_nothing` says which of these there are and what becomes of the
analysis then.  Nothing is assumed of the resolver or of the target, which has a
state of its own that it may use and change as it likes.
-/

namespace CallerGraph

/-- A graph that was handed to a target, and the answer. -/
structure Handover where
  graph : Graph
  sink : Sink
  answer : Except RenderError String

/-- The target, with a list of what it is given. -/
def Target.watched {m : Type → Type} [Monad m] (target : Target m) :
    Target (StateT (List Handover) m) :=
  fun graph sink => do
    let answer ← target graph sink
    modify fun handovers => handovers ++ [⟨graph, sink, answer⟩]
    pure answer

variable {σ τ : Type}

/-- The session in which an analysis starts to explore. -/
def Request.opened (request : Request) (session : Session σ) : Session σ :=
  session.tell [.analysisStarted request.entries.length request.options.scope]

/-- What an analysis comes to by the answer of the target. -/
def Report.of (graph : Graph) : Except RenderError String → Except GraphError Report
  | .error error => .error (.render error)
  | .ok written => .ok ⟨graph, written⟩

/-- What becomes of an exploration: its result and whether a stop was asked for
by then decide what is handed over, and that and the answer decide what the
analysis comes to. -/
inductive Concludes (request : Request) (answer : Graph → Sink → Except RenderError String) :
    Except GraphError Draft → Bool → List Handover → Except GraphError Report → Prop
  | failed (error : GraphError) (cancelled : Bool) :
      Concludes request answer (.error error) cancelled [] (.error error)
  | stopped (draft : Draft) :
      Concludes request answer (.ok draft) true [] (.error .cancelled)
  | handed (draft : Draft) {graph : Graph} (hgraph : graph = draft.toGraph request.pruned) :
      Concludes request answer (.ok draft) false
        [⟨graph, request.sink, answer graph request.sink⟩]
        (Report.of graph (answer graph request.sink))

namespace Concludes

variable {request : Request} {answer : Graph → Sink → Except RenderError String}
  {explored : Except GraphError Draft} {cancelled : Bool} {handovers : List Handover}
  {result : Except GraphError Report}

theorem length_le_one (h : Concludes request answer explored cancelled handovers result) :
    handovers.length ≤ 1 := by
  cases h <;> simp

/-- A graph is handed over when there is a draft and nobody has asked for a
stop, and it is the finished graph of the draft. -/
theorem mem_handovers_iff (h : Concludes request answer explored cancelled handovers result)
    {handover : Handover} :
    handover ∈ handovers ↔ ∃ draft, explored = .ok draft ∧ cancelled = false ∧
      handover.graph = draft.toGraph request.pruned ∧ handover.sink = request.sink ∧
      handover.answer = answer handover.graph handover.sink := by
  obtain ⟨given, sink, answered⟩ := handover
  cases h with
  | failed error cancelled => simp
  | stopped draft => simp
  | handed draft hgraph =>
      subst hgraph
      simp only [List.mem_singleton, Handover.mk.injEq, Except.ok.injEq, true_and,
        exists_eq_left']
      constructor
      · intro h
        obtain ⟨rfl, rfl, rfl⟩ := h
        exact ⟨rfl, rfl, rfl⟩
      · intro h
        obtain ⟨rfl, rfl, rfl⟩ := h
        exact ⟨rfl, rfl, rfl⟩

theorem eq_ok_iff (h : Concludes request answer explored cancelled handovers result)
    {report : Report} :
    result = .ok report ↔ ∃ handover ∈ handovers,
      handover.answer = .ok report.written ∧ report.graph = handover.graph := by
  cases h with
  | failed error cancelled => simp
  | stopped draft => simp
  | @handed draft graph _ =>
      cases answer graph request.sink with
      | error error => simp [Report.of]
      | ok written =>
          obtain ⟨reported, path⟩ := report
          simp [Report.of, eq_comm, and_comm]

/-- As long as exploring does not fail like that itself, the error of a target is
the error of one that was given the graph. -/
theorem eq_render_iff (h : Concludes request answer explored cancelled handovers result)
    {error : RenderError} (hexplored : explored ≠ .error (.render error)) :
    result = .error (.render error) ↔ ∃ handover ∈ handovers, handover.answer = .error error := by
  cases h with
  | failed known cancelled =>
      have hne : known ≠ .render error := fun heq => hexplored (heq ▸ rfl)
      simp [hne]
  | stopped draft => simp
  | @handed draft graph _ => cases answer graph request.sink <;> simp [Report.of]

/-- Only an exploration fails by a lookup. -/
theorem eq_lookup_iff (h : Concludes request answer explored cancelled handovers result)
    {method : Label} {detail : String} {cause : Option String} :
    result = .error (.lookup method detail cause) ↔
      explored = .error (.lookup method detail cause) := by
  cases h with
  | failed error cancelled => simp
  | stopped draft => simp
  | @handed draft graph _ => cases answer graph request.sink <;> simp [Report.of]

/-- The analysis is given up when nothing is handed over and exploring did not
fail in another way. -/
theorem eq_cancelled_iff (h : Concludes request answer explored cancelled handovers result) :
    result = .error .cancelled ↔
      handovers = [] ∧ (GraphError.of? explored = none ∨
        GraphError.of? explored = some .cancelled) := by
  cases h with
  | failed error cancelled => simp [GraphError.of?]
  | stopped draft => simp [GraphError.of?]
  | @handed draft graph _ => cases answer graph request.sink <;> simp [Report.of]

end Concludes

/-- Building a graph is exploring and finishing the draft; beyond that there is
only something to tell. -/
theorem buildGraph_eq (resolver : Resolver σ) (request : Request) (session : Session σ) :
    ∃ events, buildGraph resolver request session =
      ((explore resolver request.options request.entries (request.opened session)).1.map
          fun draft => draft.toGraph request.pruned,
        (explore resolver request.options request.entries (request.opened session)).2.tell
          events) := by
  obtain ⟨explored, hexplored⟩ : ∃ explored, explore resolver request.options request.entries
    (request.opened session) = explored := ⟨_, rfl⟩
  simp only [Request.opened] at hexplored
  simp only [buildGraph, Request.opened, hexplored]
  obtain ⟨result, left⟩ := explored
  cases result with
  | error error =>
      cases hcancellation : error.isCancellation with
      | true => exact ⟨[.analysisCancelled], by simp [Except.map, hcancellation]⟩
      | false => exact ⟨[], by simp [Except.map, hcancellation]⟩
  | ok draft => exact ⟨_, by simp only [Session.tell_tell, Except.map]; rfl⟩

/-- What there is to tell about the answer of a target. -/
def Report.events : Except RenderError String → List Event
  | .error _ => []
  | .ok written => [.graphRendered written]

/-- A target that is given a graph decides what the analysis comes to. -/
theorem analyse_of_built {m : Type → Type} [Monad m] {resolver : Resolver σ} {request : Request}
    (target : Target m) {session left : Session σ} {graph : Graph}
    (hbuilt : buildGraph resolver request session = (.ok graph, left))
    (hquiet : left.cancelled = false) :
    analyse resolver request target session = (do
      let answer ← target graph request.sink
      pure (Report.of graph answer, left.tell (Report.events answer))) := by
  simp only [analyse, hbuilt, hquiet, Bool.false_eq_true, if_false]
  refine bind_congr fun answer => ?_
  cases answer with
  | error error => simp only [Report.of, Report.events, Session.tell_nil]
  | ok written => rfl

/-- Nothing is handed over when there is no graph. -/
theorem analyse_of_error {m : Type → Type} [Monad m] {resolver : Resolver σ} {request : Request}
    (target : Target m) {session left : Session σ} {error : GraphError}
    (hbuilt : buildGraph resolver request session = (.error error, left)) :
    analyse resolver request target session = pure (.error error, left) := by
  simp only [analyse, hbuilt]

/-- Nothing is handed over once a stop was asked for. -/
theorem analyse_of_cancelled {m : Type → Type} [Monad m] {resolver : Resolver σ}
    {request : Request} (target : Target m) {session left : Session σ} {graph : Graph}
    (hbuilt : buildGraph resolver request session = (.ok graph, left))
    (hcancelled : left.cancelled = true) :
    analyse resolver request target session = pure (.error .cancelled, left) := by
  simp only [analyse, hbuilt, hcancelled, if_true]

/-- An analysis concludes its exploration, and watching the target changes
nothing of it. -/
theorem analyse_concludes (resolver : Resolver σ) (request : Request)
    (target : Target (StateM τ)) (session : Session σ) (world : τ) :
    let explored := explore resolver request.options request.entries (request.opened session)
    ∃ result events handovers left,
      ((analyse resolver request target.watched session).run []).run world =
        (((result, explored.2.tell events), handovers), left) ∧
      (analyse resolver request target session).run world =
        ((result, explored.2.tell events), left) ∧
      Concludes request (fun graph sink => ((target graph sink).run world).1)
        explored.1 explored.2.cancelled handovers result := by
  intro explored
  obtain ⟨events, hbuilt⟩ := buildGraph_eq resolver request session
  change buildGraph resolver request session = (explored.1.map _, explored.2.tell events) at hbuilt
  obtain ⟨result, left⟩ := explored
  cases result with
  | error error =>
      refine ⟨.error error, events, [], world, ?_, ?_, .failed error _⟩
      · rw [analyse_of_error target.watched hbuilt]
        rfl
      · rw [analyse_of_error target hbuilt]
        rfl
  | ok draft =>
      cases hcancelled : left.cancelled with
      | true =>
          refine ⟨.error .cancelled, events, [], world, ?_, ?_, .stopped draft⟩
          · rw [analyse_of_cancelled target.watched hbuilt hcancelled]
            rfl
          · rw [analyse_of_cancelled target hbuilt hcancelled]
            rfl
      | false =>
          let graph := draft.toGraph request.pruned
          let answered := (target graph request.sink).run world
          refine ⟨Report.of graph answered.1, events ++ Report.events answered.1,
            [⟨graph, request.sink, answered.1⟩], answered.2, ?_, ?_, .handed draft rfl⟩
          · rw [analyse_of_built target.watched hbuilt hcancelled, ← Session.tell_tell]
            rfl
          · rw [analyse_of_built target hbuilt hcancelled, ← Session.tell_tell]
            rfl

/-- **All or nothing.**  Whatever the resolver and the target do, a target that
is watched does to the analysis and to its own state what it does anyhow, and

* it is given a graph once at most, and that exactly when the exploration ended
  with a draft and nobody had asked for a stop by then; it is the finished graph
  of the draft, and it goes to the sink of the request;
* the analysis succeeds exactly when the target was given a graph and accepted
  it, with that graph and the path that the target answered;
* it fails by rendering exactly when the target was given a graph and refused it;
* it fails by a lookup exactly when a lookup failed, the error names the method
  of that lookup, and what it says is what the reply says;
* it is given up exactly when nothing was handed over and no lookup failed. -/
theorem analyse_all_or_nothing (resolver : Resolver σ) (request : Request)
    (target : Target (StateM τ)) (session : Session σ) (world : τ) :
    let explored := explore resolver request.options request.entries (request.opened session)
    ∃ result after handovers left,
      ((analyse resolver request target.watched session).run []).run world =
        (((result, after), handovers), left) ∧
      (analyse resolver request target session).run world = ((result, after), left) ∧
      session.Continues resolver (session.since after) after ∧
      handovers.length ≤ 1 ∧
      (∀ handover, handover ∈ handovers ↔ ∃ draft, explored.1 = .ok draft ∧
        explored.2.cancelled = false ∧
        handover.graph = draft.toGraph request.pruned ∧ handover.sink = request.sink ∧
        handover.answer = ((target handover.graph handover.sink).run world).1) ∧
      (∀ report, result = .ok report ↔ ∃ handover ∈ handovers,
        handover.answer = .ok report.written ∧ report.graph = handover.graph) ∧
      (∀ error, result = .error (.render error) ↔ ∃ handover ∈ handovers,
        handover.answer = .error error) ∧
      (∀ method detail cause, result = .error (.lookup method detail cause) ↔
        ∃ moment ∈ resolver.moments session.state (session.since after),
          ∃ below, moment.query = .callers method below ∧
            (resolver.callers method moment.state).answer = .error detail ∧
            cause = some detail) ∧
      (result = .error .cancelled ↔ handovers = [] ∧
        ∀ moment ∈ resolver.moments session.state (session.since after),
          ∀ method below, moment.query = .callers method below →
            ∃ callers, (resolver.callers method moment.state).answer = .ok callers) := by
  intro explored
  obtain ⟨asked, htalked⟩ := explore_talked resolver request.options request.entries
    (request.opened session)
  obtain ⟨result, events, handovers, left, hwatched, hplain, hconcludes⟩ :=
    analyse_concludes resolver request target session world
  change Concludes request _ explored.1 explored.2.cancelled handovers result at hconcludes
  have hcontinues : session.Continues resolver asked (explored.2.tell events) := by
    simpa using ((session.continues_tell resolver _).trans htalked.continues).trans
      (explored.2.continues_tell resolver events)
  have hends : resolver.Ends explored.2.cancelled (resolver.moments session.state asked)
      (GraphError.of? explored.1) := htalked.ends
  have hof : ∀ error, explored.1 = .error error ↔ GraphError.of? explored.1 = some error := by
    intro error
    cases explored.1 <;> simp [GraphError.of?]
  have hrender : ∀ error, explored.1 ≠ .error (.render error) := by
    intro error heq
    rw [(hof _).1 heq] at hends
    obtain hcancelled | ⟨method, message, hlookup⟩ := hends.eq_cancelled_or_lookup
    · cases hcancelled
    · cases hlookup
  refine ⟨result, explored.2.tell events, handovers, left, hwatched, hplain, ?_⟩
  rw [hcontinues.since_eq]
  refine ⟨hcontinues, hconcludes.length_le_one, fun _ => hconcludes.mem_handovers_iff,
    fun _ => hconcludes.eq_ok_iff, fun error => hconcludes.eq_render_iff (hrender error), ?_, ?_⟩
  · intro method detail cause
    have hne : GraphError.lookup method detail cause ≠ .cancelled := nofun
    rw [hconcludes.eq_lookup_iff, hof]
    simp only [← Resolver.failure?_eq_lookup_iff]
    rw [hends.exists_failure_iff, and_iff_left hne]
  · rw [hconcludes.eq_cancelled_iff, ← hends.succeeds_iff]
    simp only [Resolver.Succeeds, Resolver.failure?_eq_none_iff]

end CallerGraph
