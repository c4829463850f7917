import CallerGraph.Exploration.Explore
import CallerGraph.Proofs.Itinerary
import CallerGraph.Proofs.Recording

/-!
# Exploring a source that always says the same

As long as nobody asks for a stop, exploring a source that reads a table
comes to its end, and what it has gathered by then is what the chains of the
itinerary leave in a draft.

The traversal carries the number of hops that it may still make.
`HopsLeft` ties that number to the chain: with a limit it is what is left of
the limit, and without one it is more than there are callers off the chain,
so that it can never be what stops the traversal.
-/

namespace CallerGraph

namespace Session

variable {σ : Type} {resolver : Resolver σ} {table : CallTable}

/-- Where callers come from does not depend on the state, so screening keeps the
ones of interest. -/
theorem screen_of_origin
    (horigin : ∀ caller state, (resolver.origin caller state).answer = table.origin caller)
    (scope : Scope) (callers : List Label) (session : Session σ) :
    (screen resolver scope callers session).1 =
      callers.filter (fun caller => scope.accepts (table.origin caller)) := by
  induction callers generalizing session with
  | nil => rfl
  | cons caller callers ih =>
      have hasked : (session.askOrigin resolver caller).1 = table.origin caller :=
        horigin caller session.state
      simp only [screen, ih, hasked, List.filter_cons]

/-- Screening callers of a source that always says the same keeps those of
interest, and nobody asks for a stop meanwhile. -/
theorem screen_of_reads (hreads : resolver.Reads table) (scope : Scope) (callers : List Label)
    {session : Session σ} (hquiet : session.cancelled = false) :
    (screen resolver scope callers session).1 =
        callers.filter (fun caller => scope.accepts (table.origin caller)) ∧
      (screen resolver scope callers session).2.cancelled = false := by
  refine ⟨screen_of_origin hreads.origin scope callers session, ?_⟩
  induction callers generalizing session with
  | nil => exact hquiet
  | cons caller callers ih =>
      have hasked : (session.askOrigin resolver caller).2.cancelled = false := by
        simp [askOrigin, heard, hquiet, hreads.origin_trips]
      exact ih hasked

end Session

namespace Explore

variable {σ : Type} {resolver : Resolver σ} {table : CallTable} {options : ExploreOptions}
  {entries : List Label}

theorem run_check {found : Exploration σ} (hquiet : found.session.cancelled = false) :
    (check : Explore σ Unit).run found = .ok () found := by
  simp [check, hquiet]

theorem run_register (entries : List Label) (method : Label) (found : Exploration σ) :
    (register entries method).run found =
      .ok (found.draft.register method (entries.contains method)).1
        ⟨(found.draft.register method (entries.contains method)).2,
          found.session.tell (found.draft.notices method)⟩ := rfl

theorem run_callersInScope (hreads : resolver.Reads table) (scope : Scope) (method : Label)
    (below : List Label) (found : Exploration σ) (hquiet : found.session.cancelled = false) :
    ∃ session, session.cancelled = false ∧
      (callersInScope resolver scope method below).run found =
        .ok (table.accepted scope method) ⟨found.draft, session⟩ := by
  have hasked : (found.session.askCallers resolver method below).2.cancelled = false := by
    simp [Session.askCallers, Session.heard, hquiet, hreads.callers_trips]
  have hanswer : (found.session.askCallers resolver method below).1 =
      .ok (table.callers method) := hreads.callers method found.session.state
  obtain ⟨hscreened, hstill⟩ :=
    Session.screen_of_reads hreads scope (table.callers method).eraseDups hasked
  refine ⟨_, hstill, ?_⟩
  simp [callersInScope, lookup, run_check, hquiet, hasked, hanswer, hscreened,
    CallTable.accepted]

/-- One turn of the loop over the callers of a method. -/
def turn (resolver : Resolver σ) (options : ExploreOptions) (entries : List Label) (hops : Nat)
    (below : List Label) (method : Label) (target : NodeId) (caller : Label) : Explore σ Unit := do
  if (method :: below).contains caller then
    tell (.recursiveCall method caller)
    if options.cycles = .mark then
      let source ← register entries caller
      link ⟨source, target, true⟩
  else
    let source ← register entries caller
    link ⟨source, target, false⟩
    visit resolver options entries hops (method :: below) caller

/-- A visit with hops left: the method, its callers, and a turn for each. -/
theorem visit_succ (resolver : Resolver σ) (options : ExploreOptions) (entries : List Label)
    (hops : Nat) (below : List Label) (method : Label) :
    visit resolver options entries (hops + 1) below method = (do
      check
      let target ← register entries method
      let callers ← callersInScope resolver options.scope method below
      tell (.expanding method callers.length below.length)
      callers.forM (turn resolver options entries hops below method target)) := rfl

variable {hops : Nat} {below : List Label} {method caller : Label} {target : NodeId}

/-- The turn of a caller on the chain. -/
theorem turn_of_mem (hmem : caller ∈ method :: below) :
    turn resolver options entries hops below method target caller = (do
      tell (.recursiveCall method caller)
      if options.cycles = .mark then
        let source ← register entries caller
        link ⟨source, target, true⟩) := by
  rw [turn, if_pos (List.contains_iff_mem.2 hmem)]

/-- The turn of a caller that is not on the chain. -/
theorem turn_of_not_mem (hnew : caller ∉ method :: below) :
    turn resolver options entries hops below method target caller = (do
      let source ← register entries caller
      link ⟨source, target, false⟩
      visit resolver options entries hops (method :: below) caller) := by
  rw [turn, if_neg fun h => hnew (List.contains_iff_mem.1 h)]

/-- Under dropping a caller on the chain is told of. -/
theorem run_turn_drop (hmem : caller ∈ method :: below) (hcycles : options.cycles = .drop)
    (found : Exploration σ) :
    (turn resolver options entries hops below method target caller).run found =
      .ok () ⟨found.draft, found.session.tell [.recursiveCall method caller]⟩ := by
  have hmark : ¬ options.cycles = .mark := by simp [hcycles]
  rw [turn_of_mem hmem, if_neg hmark]
  rfl

/-- Under marking a caller on the chain is told of and linked. -/
theorem run_turn_mark (hmem : caller ∈ method :: below) (hcycles : options.cycles = .mark)
    (found : Exploration σ) :
    (turn resolver options entries hops below method target caller).run found =
      .ok () ⟨(found.draft.register caller (entries.contains caller)).2.link
          ⟨(found.draft.register caller (entries.contains caller)).1, target, true⟩,
        (found.session.tell [.recursiveCall method caller]).tell
          (found.draft.notices caller)⟩ := by
  rw [turn_of_mem hmem, if_pos hcycles]
  rfl

/-- The turn of a caller on the chain leaves in the draft what the policy
keeps of the closed chain. -/
theorem run_turn_of_mem (hmem : caller ∈ method :: below) {found : Exploration σ}
    (htidy : found.draft.Tidy entries) (hknown : found.draft.registry.idOf? method = some target)
    (hquiet : found.session.cancelled = false) :
    ∃ session, session.cancelled = false ∧
      (turn resolver options entries hops below method target caller).run found =
        .ok () ⟨found.draft.meetAll entries
          ([caller :: method :: below].filter options.cycles.keeps), session⟩ := by
  rw [List.filter_singleton, CyclePolicy.keeps_of_mem hmem]
  cases hcycles : options.cycles with
  | drop =>
      exact ⟨found.session.tell [.recursiveCall method caller], hquiet,
        run_turn_drop hmem hcycles found⟩
  | mark =>
      have hmeet : found.draft.meet entries (caller :: method :: below) = _ :=
        htidy.meet_known hknown
      rw [closesCycle_eq_true_iff.2 hmem] at hmeet
      refine ⟨(found.session.tell [.recursiveCall method caller]).tell
        (found.draft.notices caller), hquiet, (run_turn_mark hmem hcycles found).trans ?_⟩
      rw [← hmeet]
      rfl

/-- A caller that is not on the chain is registered, linked and followed. -/
theorem run_turn_of_not_mem (hnew : caller ∉ method :: below) (found : Exploration σ) :
    (turn resolver options entries hops below method target caller).run found =
      (visit resolver options entries hops (method :: below) caller).run
        ⟨(found.draft.register caller (entries.contains caller)).2.link
            ⟨(found.draft.register caller (entries.contains caller)).1, target, false⟩,
          found.session.tell (found.draft.notices caller)⟩ := by
  rw [turn_of_not_mem hnew]
  rfl

/-- A loop whose every turn leaves some chains in the draft leaves them all,
one turn after the other. -/
theorem run_forM_meetAll {α : Type} {items : List α} {step : α → Explore σ PUnit}
    {gather : α → List (List Label)} {invariant : Draft → Prop}
    (hkeeps : ∀ draft chains, invariant draft → invariant (draft.meetAll entries chains))
    (hstep : ∀ item ∈ items, ∀ found : Exploration σ, found.session.cancelled = false →
      invariant found.draft → ∃ session, session.cancelled = false ∧
        (step item).run found = .ok () ⟨found.draft.meetAll entries (gather item), session⟩)
    (found : Exploration σ) (hquiet : found.session.cancelled = false)
    (hstart : invariant found.draft) :
    ∃ session, session.cancelled = false ∧
      (items.forM step).run found =
        .ok () ⟨found.draft.meetAll entries (items.flatMap gather), session⟩ := by
  induction items generalizing found with
  | nil => exact ⟨found.session, hquiet, rfl⟩
  | cons item items ih =>
      obtain ⟨session, hsession, hrun⟩ :=
        hstep item List.mem_cons_self found hquiet hstart
      obtain ⟨last, hlast, hrest⟩ :=
        ih (fun other hother => hstep other (List.mem_cons_of_mem _ hother))
          ⟨found.draft.meetAll entries (gather item), session⟩ hsession
          (hkeeps _ _ hstart)
      refine ⟨last, hlast, ?_⟩
      rw [List.flatMap_cons, Draft.meetAll_append]
      show EStateM.run (step item >>= fun _ => items.forM step) found = _
      rw [EStateM.run_bind, hrun]
      exact hrest

/-- The number of hops that a traversal at the end of a chain has left. -/
def HopsLeft (table : CallTable) (limit : Option Nat) (chain : List Label) (hops : Nat) : Prop :=
  match limit with
  | some most => chain.length + hops = most + 1
  | none => (table.labels \ chain.toFinset).card < hops

theorem HopsLeft.full {limit : Option Nat} {below : List Label} {method : Label}
    (h : HopsLeft table limit (method :: below) 0) : ¬ ∀ most ∈ limit, below.length < most := by
  cases limit with
  | none => exact absurd h (Nat.not_lt_zero _)
  | some most =>
      simp only [HopsLeft, List.length_cons] at h
      simp only [Option.mem_def, Option.some.injEq, forall_eq']
      omega

theorem HopsLeft.room {limit : Option Nat} {below : List Label} {method : Label} {hops : Nat}
    (h : HopsLeft table limit (method :: below) (hops + 1)) :
    ∀ most ∈ limit, below.length < most := by
  intro most hmost
  obtain rfl : limit = some most := hmost
  simp only [HopsLeft, List.length_cons] at h
  omega

theorem HopsLeft.cons {limit : Option Nat} {chain : List Label} {caller : Label} {hops : Nat}
    (h : HopsLeft table limit chain (hops + 1)) (hlabel : caller ∈ table.labels)
    (hnew : caller ∉ chain) : HopsLeft table limit (caller :: chain) hops := by
  cases limit with
  | none =>
      have hless := CallTable.card_sdiff_lt hlabel hnew
      simp only [HopsLeft] at h ⊢
      omega
  | some most =>
      simp only [HopsLeft, List.length_cons] at h ⊢
      omega

/-- A traversal starts with enough hops. -/
theorem hopsLeft_reach (hspan : table.labels.card ≤ resolver.span) (options : ExploreOptions)
    (entry : Label) : HopsLeft table options.maxDepth [entry] (reach resolver options) := by
  unfold HopsLeft reach
  cases options.maxDepth with
  | none =>
      have hcard := Finset.card_le_card (Finset.sdiff_subset (s := table.labels)
        (t := [entry].toFinset))
      simp only [Option.getD_none]
      omega
  | some most =>
      simp only [Option.getD_some, List.length_singleton]
      omega

/-- **Following one chain.**  From a tidy draft, with nobody asking for a
stop, the visit comes to its end; it registers its method and then leaves in
the draft what is met under the chain. -/
theorem run_visit (hreads : resolver.Reads table) {hops : Nat} {below : List Label}
    {method : Label} (hhops : HopsLeft table options.maxDepth (method :: below) hops)
    (found : Exploration σ) (hquiet : found.session.cancelled = false)
    (htidy : found.draft.Tidy entries) :
    ∃ session, session.cancelled = false ∧
      (visit resolver options entries hops below method).run found =
        .ok () ⟨(found.draft.register method (entries.contains method)).2.meetAll entries
          ((table.chainsUnder options.scope options.maxDepth below method).filter
            options.cycles.keeps), session⟩ := by
  induction hops generalizing below method found with
  | zero =>
      refine ⟨found.session.tell (found.draft.notices method), hquiet, ?_⟩
      rw [CallTable.chainsUnder_of_not_lt hhops.full]
      simp only [visit, EStateM.run_bind, run_check hquiet, run_register]
      rfl
  | succ hops ih =>
      -- Between two turns of the loop the draft is tidy and the method keeps the
      -- identifier that the turns link their callers to.
      let target := (found.draft.register method (entries.contains method)).1
      let invariant := fun draft : Draft =>
        draft.Tidy entries ∧ draft.registry.idOf? method = some target
      have hkeeps : ∀ draft chains, invariant draft → invariant (draft.meetAll entries chains) :=
        fun draft chains h => ⟨h.1.meetAll chains, Draft.idOf?_meetAll h.2 chains⟩
      obtain ⟨session, hsession, hcallers⟩ :=
        run_callersInScope hreads options.scope method below
          ⟨(found.draft.register method (entries.contains method)).2,
            found.session.tell (found.draft.notices method)⟩ hquiet
      rw [CallTable.chainsUnder_of_lt hhops.room, List.filter_flatMap]
      simp only [visit_succ, EStateM.run_bind, run_check hquiet, run_register, hcallers]
      refine run_forM_meetAll hkeeps ?_ _ hsession
        ⟨htidy.register method, Registry.idOf?_register_self⟩
      intro caller hcaller found hquiet hinvariant
      by_cases hmem : caller ∈ method :: below
      · rw [if_pos hmem]
        exact run_turn_of_mem hmem hinvariant.1 hinvariant.2 hquiet
      · have hlabel := (CallTable.mem_accepted.1 hcaller).caller_mem
        have hmeet : found.draft.meet entries (caller :: method :: below) = _ :=
          hinvariant.1.meet_known hinvariant.2
        rw [closesCycle_eq_false_iff.2 hmem] at hmeet
        rw [if_neg hmem, List.filter_cons_of_pos (CyclePolicy.keeps_of_not_mem hmem),
          run_turn_of_not_mem hmem, ← hmeet, Draft.meetAll_cons]
        have htidy := hinvariant.1.meet (caller :: method :: below)
        have hmet : caller ∈
            (found.draft.meet entries (caller :: method :: below)).registry.labels :=
          Draft.mem_labels_meet.2 (Or.inl (by simp))
        obtain ⟨id, hid⟩ := Registry.exists_idOf?_iff.2 hmet
        obtain ⟨session, hsession, hrun⟩ := ih (hhops.cons hlabel hmem)
          ⟨found.draft.meet entries (caller :: method :: below),
            found.session.tell (found.draft.notices caller)⟩ hquiet htidy
        refine ⟨session, hsession, hrun.trans ?_⟩
        rw [htidy.register_known hid]

/-- Visiting the entries leaves the whole itinerary in the draft. -/
theorem run_visitEntries (hreads : resolver.Reads table) (options : ExploreOptions)
    (found : Exploration σ) (hquiet : found.session.cancelled = false)
    (htidy : found.draft.Tidy entries) :
    ∃ session, session.cancelled = false ∧
      (visitEntries resolver options entries).run found =
        .ok () ⟨found.draft.meetAll entries
          ((table.itinerary options.scope options.maxDepth entries).filter
            options.cycles.keeps), session⟩ := by
  unfold visitEntries CallTable.itinerary
  rw [List.filter_flatMap]
  have hkeeps : ∀ draft chains, Draft.Tidy entries draft →
      Draft.Tidy entries (draft.meetAll entries chains) :=
    fun draft chains h => h.meetAll chains
  refine run_forM_meetAll hkeeps ?_ found hquiet htidy
  intro entry _ found hquiet htidy
  obtain ⟨session, hsession, hrun⟩ := run_visit hreads (hopsLeft_reach hreads.span options entry)
    found hquiet htidy
  refine ⟨session, hsession, hrun.trans ?_⟩
  rw [List.filter_cons_of_pos (CyclePolicy.keeps_of_not_mem List.not_mem_nil), Draft.meetAll_cons]
  rfl

end Explore

/-- What an exploration of a table gathers. -/
def CallTable.gathered (table : CallTable) (options : ExploreOptions) (entries : List Label) :
    Draft :=
  (Draft.fresh options.colors).meetAll entries
    ((table.itinerary options.scope options.maxDepth entries).filter options.cycles.keeps)

/-- **An exploration comes to its end.**  When the source reads a table and
nobody has asked for a stop before, there is a draft at the end, the one that
the chains of the itinerary leave behind, and nobody has asked for a stop. -/
theorem explore_of_reads {σ : Type} {resolver : Resolver σ} {table : CallTable}
    (hreads : resolver.Reads table) (options : ExploreOptions) (entries : List Label)
    {session : Session σ} (hquiet : session.cancelled = false) :
    (explore resolver options entries session).1 = .ok (table.gathered options entries) ∧
      (explore resolver options entries session).2.cancelled = false := by
  obtain ⟨last, hlast, hrun⟩ := Explore.run_visitEntries hreads options
    ⟨.fresh options.colors, session⟩ hquiet (Draft.tidy_fresh entries options.colors)
  unfold explore
  rw [hrun]
  exact ⟨rfl, hlast⟩

end CallerGraph
