import CallerGraph.Proofs.SharedPath

/-!
# Visits return

With a depth limit every visit returns, whatever the resolver does and whether or
not it fails, and what it leaves is what `Explore.visit` comes to from outside.
Without one that asks for a resolver that names no more methods than it says,
since then no chain gets as long as the limit that `explore` goes by.

The induction is on the hops that the limit leaves.  `CallStack.Returns` is what it
carries; the loop over the callers of a method is gone through by the callers that
are to come, with one turn as its step.

So the set that the visits share can be left out of account: testing it and testing
the chain are one thing (`CallStack.exists_result_explore`), and every visit leaves
it as it was (`CallStack.path_exact_and_restored`).
-/

namespace CallerGraph

namespace CallStack

variable {σ : Type} {resolver : Resolver σ} {options : ExploreOptions} {entries : List Label}
  {stack next : CallStack σ} {method caller : Label} {depth hops limit : Nat}
  {visit : OpenVisit} {outcome : Except GraphError Unit}

/-! ### Stretches of an exploration -/

/-- Where nothing returns, nothing returns to these. -/
theorem not_returnsTo {waiting : List OpenVisit}
    (h : ∀ outcome, stack.control ≠ .returning outcome) : ¬ stack.ReturnsTo waiting :=
  fun ⟨⟨outcome, hreturning⟩, _⟩ => h outcome hreturning

/-- What a visit does that another one has made is within that one. -/
theorem Within.of_caller {waiting : List OpenVisit}
    (h : Within resolver options entries stack.waiting stack next)
    (hcontrol : stack.control = .entering method depth)
    (hwaiting : stack.waiting = visit :: waiting) :
    Within resolver options entries waiting stack next := by
  induction h with
  | refl => exact .refl
  | @tail middle last hbefore hstep ih =>
      refine ih.tail ⟨hstep.1, fun hended => ?_⟩
      obtain ⟨inner, hinner, -⟩ := Within.belongs hbefore hcontrol
      have hlength := congrArg List.length hinner
      rw [hended.2, hwaiting, List.length_append, List.length_cons] at hlength
      omega

/-! ### The steps of a visit -/

theorem enter_of_cancelled (h : stack.found.session.cancelled = true) :
    stack.enter options entries method depth =
      { stack with control := .returning (.error .cancelled) } := by
  simp only [enter, EStateM.run_bind, Explore.run_check_of_cancelled h]

/-- A method is registered before it is seen whether the limit is reached. -/
theorem enter_of_quiet (h : stack.found.session.cancelled = false) :
    stack.enter options entries method depth =
      let (target, draft) := stack.found.draft.register method (entries.contains method)
      let found := ⟨draft, stack.found.session.tell (stack.found.draft.notices method)⟩
      if options.maxDepth.any (· ≤ depth) then
        { stack with control := .returning (.ok ()), found }
      else
        { stack with
          control := .expanding ⟨method, target, depth, [], 0⟩
          path := stack.path.insert method
          found } := by
  simp only [enter, EStateM.run_bind, Explore.run_check h, Explore.run_register]

/-- The outcome of a visit. -/
def outcomeOf : EStateM.Result GraphError (Exploration σ) Unit → Except GraphError Unit
  | .ok _ _ => .ok ()
  | .error error _ => .error error

/-- A visit with hops left, when nobody has asked for a stop. -/
theorem run_visit_of_quiet {below : List Label} {found : Exploration σ}
    (h : found.session.cancelled = false) :
    (Explore.visit resolver options entries (hops + 1) below method).run found =
      let (target, draft) := found.draft.register method (entries.contains method)
      match (Explore.callersInScope resolver options.scope method below).run
          ⟨draft, found.session.tell (found.draft.notices method)⟩ with
      | .error error left => .error error left
      | .ok callers left =>
          (callers.forM (Explore.turn resolver options entries hops below method target)).run
            (toldCallers method below.length callers left) := by
  simp only [Explore.visit_succ, EStateM.run_bind, Explore.run_check h, Explore.run_register]
  cases (Explore.callersInScope resolver options.scope method below).run
    ⟨(found.draft.register method (entries.contains method)).2,
      found.session.tell (found.draft.notices method)⟩ with
  | error error left => rfl
  | ok callers left => rfl

/-- A visit without hops left, when nobody has asked for a stop. -/
theorem run_visit_zero_of_quiet {below : List Label} {found : Exploration σ}
    (h : found.session.cancelled = false) :
    (Explore.visit resolver options entries 0 below method).run found =
      .ok () ⟨(found.draft.register method (entries.contains method)).2,
        found.session.tell (found.draft.notices method)⟩ := by
  simp only [Explore.visit, EStateM.run_bind, Explore.run_check h, Explore.run_register]
  rfl

/-! ### The callers of a method -/

/-- A visit is in its callers, and its method is on the path. -/
structure Examines (stack : CallStack σ) (visit : OpenVisit) : Prop where
  control : stack.control = .examining visit
  depth : visit.depth = stack.waiting.length
  path : stack.path = pathOf (visit.method :: stack.chain)

theorem examine_of_getElem?_eq_none (h : visit.callers[visit.position]? = none) :
    stack.examine options entries visit = { stack with control := .closing visit (.ok ()) } := by
  simp only [examine, h]

/-- A caller on the path gets the turn of a caller on the chain. -/
theorem examine_of_mem (resolver : Resolver σ) (options : ExploreOptions) (entries : List Label)
    (hops : Nat) (hcaller : visit.callers[visit.position]? = some caller)
    (hpath : stack.path = pathOf (visit.method :: stack.chain))
    (hmem : caller ∈ visit.method :: stack.chain) :
    ∃ found,
      (Explore.turn resolver options entries hops stack.chain visit.method visit.target caller).run
        stack.found = .ok () found ∧
      stack.examine options entries visit =
        { stack with
          control := .examining { visit with position := visit.position + 1 }
          found } := by
  have hcontains : stack.path.contains caller = true := by
    rw [Std.ExtHashSet.contains_iff_mem, hpath, mem_pathOf]
    exact hmem
  have hturn : Explore.turn resolver options entries hops stack.chain visit.method visit.target
      caller = closeCycle options entries visit caller := Explore.turn_of_mem hmem
  obtain ⟨found, hrun⟩ : ∃ found, (closeCycle options entries visit caller).run stack.found =
      .ok () found := by
    rw [← hturn]
    cases hcycles : options.cycles with
    | drop => exact ⟨_, Explore.run_turn_drop hmem hcycles stack.found⟩
    | mark => exact ⟨_, Explore.run_turn_mark hmem hcycles stack.found⟩
  refine ⟨found, hturn ▸ hrun, ?_⟩
  simp only [examine, hcaller, hcontains, if_true, perform_eq, hrun, Explore.leftBy]

/-- A caller that is not on the path is visited. -/
theorem examine_of_not_mem (resolver : Resolver σ) (options : ExploreOptions)
    (entries : List Label) (hops : Nat) (hcaller : visit.callers[visit.position]? = some caller)
    (hpath : stack.path = pathOf (visit.method :: stack.chain))
    (hnew : caller ∉ visit.method :: stack.chain) :
    ∃ found,
      (Explore.turn resolver options entries hops stack.chain visit.method visit.target caller).run
          stack.found =
        (Explore.visit resolver options entries hops (visit.method :: stack.chain) caller).run
          found ∧
      stack.examine options entries visit =
        { stack with
          control := .entering caller (visit.depth + 1)
          waiting := { visit with position := visit.position + 1 } :: stack.waiting
          found } := by
  have hcontains : ¬ stack.path.contains caller = true := by
    rw [Std.ExtHashSet.contains_iff_mem, hpath, mem_pathOf]
    exact hnew
  refine ⟨_, Explore.run_turn_of_not_mem hnew stack.found, ?_⟩
  simp only [examine, hcaller, if_neg hcontains, perform_eq]
  rfl

/-- A loop goes on behind a turn that succeeds. -/
theorem run_forM_of_ok {α : Type} {item : α} {items : List α} {turn : α → Explore σ PUnit}
    {found left : Exploration σ} (h : (turn item).run found = .ok () left) :
    ((item :: items).forM turn).run found = (items.forM turn).run left := by
  change (turn item >>= fun _ => items.forM turn).run found = _
  rw [EStateM.run_bind, h]

/-- A loop ends with a turn that fails. -/
theorem run_forM_of_error {α : Type} {item : α} {items : List α} {turn : α → Explore σ PUnit}
    {found left : Exploration σ} {error : GraphError}
    (h : (turn item).run found = .error error left) :
    ((item :: items).forM turn).run found = .error error left := by
  change (turn item >>= fun _ => items.forM turn).run found = _
  rw [EStateM.run_bind, h]

/-- The moment at which a visit is over. -/
def returned (stack : CallStack σ) (result : EStateM.Result GraphError (Exploration σ) Unit) :
    CallStack σ :=
  { stack with control := .returning (outcomeOf result), found := Explore.leftBy result }

/-- Do all visits so many hops from the entry return, with what `Explore.visit` comes
to? -/
def Returns (resolver : Resolver σ) (options : ExploreOptions) (entries : List Label)
    (depth hops : Nat) : Prop :=
  ∀ (call : CallStack σ) (method : Label), call.Enters method depth →
    Within resolver options entries call.waiting call (call.returned
      ((Explore.visit resolver options entries hops call.chain method).run call.found))

theorem Examines.within_examine (h : stack.Examines visit) :
    Within resolver options entries stack.waiting stack (stack.examine options entries visit) :=
  .single ⟨by rw [step, h.control], not_returnsTo (by simp [h.control])⟩

/-- A caller is examined, together with the visit that it may lead to: the loop goes
on with the next one, or is over with the error of that visit. -/
theorem Examines.within_turned (h : stack.Examines visit)
    (hcaller : visit.callers[visit.position]? = some caller)
    (hvisits : Returns resolver options entries (visit.depth + 1) hops) :
    let taken := { visit with position := visit.position + 1 }
    match (Explore.turn resolver options entries hops stack.chain visit.method visit.target
      caller).run stack.found with
    | .ok _ found =>
        Within resolver options entries stack.waiting stack
          { stack with control := .examining taken, found }
    | .error error found =>
        Within resolver options entries stack.waiting stack
          { stack with control := .closing taken (.error error), found } := by
  intro taken
  have hstep : Within resolver options entries stack.waiting stack
      (stack.examine options entries visit) := h.within_examine
  by_cases hmem : caller ∈ visit.method :: stack.chain
  · obtain ⟨found, hrun, hexamine⟩ :=
      examine_of_mem resolver options entries hops hcaller h.path hmem
    rw [hexamine] at hstep
    rw [hrun]
    exact hstep
  · obtain ⟨found, hrun, hexamine⟩ :=
      examine_of_not_mem resolver options entries hops hcaller h.path hmem
    let made : CallStack σ :=
      { stack with
        control := .entering caller (visit.depth + 1)
        waiting := taken :: stack.waiting
        found }
    have hmade : made.Enters caller (visit.depth + 1) :=
      ⟨rfl, hmem, congrArg (· + 1) h.depth, h.path⟩
    have hback : Within resolver options entries stack.waiting made (made.returned
        ((Explore.visit resolver options entries hops (visit.method :: stack.chain) caller).run
          found)) := (hvisits made caller hmade).of_caller rfl rfl
    -- The visit that was made returns to this one, and not to those that wait for it.
    have hgoes : ∀ result, ¬ (made.returned result).ReturnsTo stack.waiting :=
      fun result hended => List.cons_ne_self taken stack.waiting hended.2
    rw [hexamine] at hstep
    rw [hrun]
    cases hvisit : (Explore.visit resolver options entries hops (visit.method :: stack.chain)
        caller).run found with
    | ok _ left =>
        rw [hvisit] at hback
        exact (hstep.trans hback).trans (.single ⟨rfl, hgoes _⟩)
    | error error left =>
        rw [hvisit] at hback
        exact (hstep.trans hback).trans (.single ⟨rfl, hgoes _⟩)

/-- The callers of a method come to an end, and it is the end of the loop over
them. -/
theorem Examines.within_closing {rest : List Label} (h : stack.Examines visit)
    (hrest : visit.callers.drop visit.position = rest)
    (hvisits : Returns resolver options entries (visit.depth + 1) hops) :
    let result := (rest.forM (Explore.turn resolver options entries hops stack.chain visit.method
      visit.target)).run stack.found
    ∃ last : OpenVisit, last.method = visit.method ∧
      Within resolver options entries stack.waiting stack
        { stack with
          control := .closing last (outcomeOf result)
          found := Explore.leftBy result } := by
  induction rest generalizing stack visit with
  | nil =>
      have hnone : visit.callers[visit.position]? = none :=
        List.getElem?_eq_none (List.drop_eq_nil_iff.1 hrest)
      have hstep : Within resolver options entries stack.waiting stack
          (stack.examine options entries visit) := h.within_examine
      rw [examine_of_getElem?_eq_none hnone] at hstep
      exact ⟨visit, rfl, hstep⟩
  | cons caller rest ih =>
      have hcaller : visit.callers[visit.position]? = some caller := by
        rw [← List.head?_drop, hrest, List.head?_cons]
      have htaken : visit.callers.drop (visit.position + 1) = rest := by
        rw [← List.tail_drop, hrest, List.tail_cons]
      let taken := { visit with position := visit.position + 1 }
      have hturned := h.within_turned hcaller hvisits
      cases hrun : (Explore.turn resolver options entries hops stack.chain visit.method visit.target
          caller).run stack.found with
      | error error found =>
          rw [hrun] at hturned
          rw [run_forM_of_error hrun]
          exact ⟨taken, rfl, hturned⟩
      | ok _ found =>
          rw [hrun] at hturned
          rw [run_forM_of_ok hrun]
          let turned : CallStack σ := { stack with control := .examining taken, found }
          have hexamines : turned.Examines taken := ⟨rfl, h.depth, h.path⟩
          obtain ⟨last, hlast, hclosing⟩ := ih hexamines htaken hvisits
          exact ⟨last, hlast, hturned.trans hclosing⟩

/-! ### A whole visit -/

theorem Enters.within_enter (h : stack.Enters method depth) :
    Within resolver options entries stack.waiting stack
      (stack.enter options entries method depth) :=
  .single ⟨by rw [step, h.control], not_returnsTo (by simp [h.control])⟩

/-- A visit that has put its method into the path and is through with its callers is
over with the path that it found. -/
theorem Enters.within_of_closing (h : stack.Enters method depth) {found : Exploration σ}
    (hvisit : visit.method = method) :
    Within resolver options entries stack.waiting
      { stack with
        control := .closing visit outcome
        path := stack.path.insert method
        found }
      { stack with control := .returning outcome, found } := by
  have herased : (stack.path.insert method).erase visit.method = stack.path := by
    rw [hvisit, h.path, insert_pathOf, erase_pathOf h.new]
  refine .single ⟨congrArg some ?_, not_returnsTo fun _ => Control.noConfusion⟩
  simp only [close, herased]

/-- A visit returns at once after a stop was asked for. -/
theorem Enters.within_returned_of_cancelled (h : stack.Enters method depth)
    (hcancelled : stack.found.session.cancelled = true) :
    Within resolver options entries stack.waiting stack (stack.returned
      ((Explore.visit resolver options entries hops stack.chain method).run stack.found)) := by
  have hstep : Within resolver options entries stack.waiting stack
      (stack.enter options entries method depth) := h.within_enter
  rw [enter_of_cancelled hcancelled] at hstep
  rw [Explore.run_visit_of_cancelled hcancelled]
  exact hstep

/-- A visit returns at once at the depth limit. -/
theorem Enters.within_returned_of_full (h : stack.Enters method depth)
    (hquiet : stack.found.session.cancelled = false)
    (hfull : options.maxDepth.any (· ≤ depth) = true) :
    Within resolver options entries stack.waiting stack (stack.returned
      ((Explore.visit resolver options entries 0 stack.chain method).run stack.found)) := by
  have hstep : Within resolver options entries stack.waiting stack
      (stack.enter options entries method depth) := h.within_enter
  rw [enter_of_quiet hquiet] at hstep
  simp only [hfull, if_true] at hstep
  rw [run_visit_zero_of_quiet hquiet]
  exact hstep

/-- A visit that looks up callers returns if the visits that it makes do. -/
theorem Enters.within_returned_of_open (h : stack.Enters method depth)
    (hquiet : stack.found.session.cancelled = false)
    (hopen : options.maxDepth.any (· ≤ depth) = false)
    (hvisits : Returns resolver options entries (depth + 1) hops) :
    Within resolver options entries stack.waiting stack (stack.returned
      ((Explore.visit resolver options entries (hops + 1) stack.chain method).run
        stack.found)) := by
  let registered := stack.found.draft.register method (entries.contains method)
  let visit : OpenVisit := ⟨method, registered.1, depth, [], 0⟩
  let opened : CallStack σ :=
    { stack with
      control := .expanding visit
      path := stack.path.insert method
      found := ⟨registered.2, stack.found.session.tell (stack.found.draft.notices method)⟩ }
  have henter : Within resolver options entries stack.waiting stack opened := by
    have hstep : Within resolver options entries stack.waiting stack
        (stack.enter options entries method depth) := h.within_enter
    rw [enter_of_quiet hquiet] at hstep
    simpa only [hopen, Bool.false_eq_true, if_false] using hstep
  have hexpand : Within resolver options entries stack.waiting opened
      (opened.expand resolver options visit) :=
    .single ⟨rfl, not_returnsTo fun _ => Control.noConfusion⟩
  have hvisit : (Explore.visit resolver options entries (hops + 1) stack.chain method).run
      stack.found = _ := run_visit_of_quiet hquiet
  have hdepth : depth = stack.chain.length := h.depth.trans (List.length_map _).symm
  dsimp only at hvisit
  cases hrun : (Explore.callersInScope resolver options.scope method stack.chain).run
      opened.found with
  | error error left =>
      rw [expand_of_error hrun] at hexpand
      rw [hvisit, hrun]
      exact (henter.trans hexpand).trans (h.within_of_closing rfl)
  | ok callers left =>
      rw [expand_of_ok hrun] at hexpand
      let examined : CallStack σ :=
        { opened with
          control := .examining { visit with callers }
          found := toldCallers method depth callers left }
      have hexamines : examined.Examines { visit with callers } :=
        ⟨rfl, h.depth, (congrArg (·.insert method) h.path).trans (insert_pathOf _ _)⟩
      obtain ⟨last, hlast, hclosing⟩ := hexamines.within_closing rfl hvisits
      rw [hvisit, hrun, ← hdepth]
      exact ((henter.trans hexpand).trans hclosing).trans (h.within_of_closing hlast)

/-- **With a limit visits return**, at every depth and from every moment. -/
theorem returns (hlimit : options.maxDepth = some limit) :
    Returns resolver options entries depth (limit - depth) := by
  induction hhops : limit - depth generalizing depth with
  | zero =>
      intro call method h
      cases hcancelled : call.found.session.cancelled with
      | true => exact h.within_returned_of_cancelled hcancelled
      | false =>
          have hfull : options.maxDepth.any (· ≤ depth) = true := by
            rw [hlimit, Option.any_some, decide_eq_true_eq]
            omega
          exact h.within_returned_of_full hcancelled hfull
  | succ hops ih =>
      intro call method h
      cases hcancelled : call.found.session.cancelled with
      | true => exact h.within_returned_of_cancelled hcancelled
      | false =>
          have hopen : options.maxDepth.any (· ≤ depth) = false := by
            rw [hlimit, Option.any_some, decide_eq_false_iff_not]
            omega
          exact h.within_returned_of_open hcancelled hopen (ih (by omega))

/-! ### The entries -/

/-- The visits of the entries to come are over in their order, or with the first of them
that fails. -/
theorem exists_result (hlimit : options.maxDepth = some limit) (path : Std.ExtHashSet Label)
    (remaining : List Label) (found : Exploration σ) :
    let visited := (remaining.forM (Explore.visit resolver options entries limit [])).run found
    ∃ ending, Reaches resolver options entries ⟨.choosing, [], path, remaining, found⟩ ending ∧
      ending.result? = some (Explore.concluded visited) := by
  induction remaining generalizing path found with
  | nil => exact ⟨⟨.finished (.ok ()), [], path, [], found⟩, .single rfl, rfl⟩
  | cons entry remaining ih =>
      let call : CallStack σ := ⟨.entering entry 0, [], ∅, remaining, found⟩
      have hcall : Reaches resolver options entries
          ⟨.choosing, [], path, entry :: remaining, found⟩ call := .single rfl
      have henters : call.Enters entry 0 := ⟨rfl, List.not_mem_nil, rfl, pathOf_nil.symm⟩
      have hended : Within resolver options entries [] call (call.returned
          ((Explore.visit resolver options entries limit [] entry).run found)) :=
        returns hlimit call entry henters
      have hreturned := hcall.trans hended.reaches
      cases hvisit : (Explore.visit resolver options entries limit [] entry).run found with
      | error error left =>
          rw [hvisit] at hreturned
          rw [run_forM_of_error hvisit]
          exact ⟨⟨.finished (.error error), [], ∅, remaining, left⟩,
            hreturned.trans (.single rfl), rfl⟩
      | ok _ left =>
          rw [hvisit] at hreturned
          rw [run_forM_of_ok hvisit]
          obtain ⟨ending, hending, hresult⟩ := ih ∅ left
          exact ⟨ending, (hreturned.trans (.single rfl)).trans hending, hresult⟩

/-! ### Without a limit -/

/-- Does the span count all methods that the resolver ever names? -/
def Spanned (resolver : Resolver σ) : Prop :=
  ∃ labels : List Label, labels.length ≤ resolver.span ∧
    ∀ method caller, Names resolver method caller → caller ∈ labels

/-- A chain has no more hops than there are methods that the resolver names. -/
theorem Made.length_le {remaining labels : List Label} {waiting : List OpenVisit}
    (h : Made resolver entries remaining waiting method)
    (hnames : ∀ method caller, Names resolver method caller → caller ∈ labels) :
    waiting.length ≤ labels.length := by
  have hnamed : (method :: waiting.map OpenVisit.method).dropLast ⊆ labels := by
    induction h with
    | entry => exact List.nil_subset _
    | @caller visit waiting caller _ _ hfound htaken _ ih =>
        obtain ⟨position, -, hcaller⟩ := htaken
        rw [List.map_cons, List.dropLast_cons_cons]
        exact List.cons_subset.2
          ⟨hnames _ _ (hfound caller (List.mem_of_getElem? hcaller)), ih⟩
  have hnodup := h.nodup.sublist (List.dropLast_sublist _)
  have hlength := (List.subperm_of_subset hnodup hnamed).length_le
  rwa [List.length_dropLast, List.length_cons, List.length_map, Nat.add_sub_cancel] at hlength

/-- The options with the limit that `explore` goes by. -/
def withReach (resolver : Resolver σ) (options : ExploreOptions) : ExploreOptions :=
  { options with maxDepth := some (Explore.reach resolver options) }

theorem visit_withReach (below : List Label) :
    Explore.visit resolver (withReach resolver options) entries hops below method =
      Explore.visit resolver options entries hops below method := by
  induction hops generalizing below method with
  | zero => rfl
  | succ hops ih =>
      simp only [Explore.visit_succ]
      have hturn : ∀ target, Explore.turn resolver (withReach resolver options) entries hops below
          method target = Explore.turn resolver options entries hops below method target := by
        intro target
        funext caller
        simp only [Explore.turn, ih]
        rfl
      simp only [hturn]
      rfl

/-- Where there is no limit, the reach is never met. -/
theorem Exact.step_withReach (h : stack.Exact resolver entries)
    (hspanned : options.maxDepth = none → Spanned resolver) :
    stack.step resolver (withReach resolver options) entries =
      stack.step resolver options entries := by
  unfold CallStack.step
  cases hcontrol : stack.control with
  | choosing | expanding _ | examining _ | closing _ _ | returning _ | finished _ => rfl
  | entering method depth =>
      have hsame : (withReach resolver options).maxDepth.any (· ≤ depth) =
          options.maxDepth.any (· ≤ depth) := by
        cases hlimit : options.maxDepth with
        | some limit => simp only [withReach, Explore.reach, hlimit, Option.getD_some]
        | none =>
            obtain ⟨labels, hspan, hnames⟩ := hspanned hlimit
            have hlength := (h.made hcontrol).length_le hnames
            have hdepth := (h.enters hcontrol).depth
            simp only [withReach, Explore.reach, hlimit, Option.getD_none, Option.any_some,
              Option.any_none, decide_eq_false_iff_not]
            omega
      simp only [enter, hsame]

theorem Reaches.of_withReach
    (hreaches : Reaches resolver (withReach resolver options) entries stack next)
    (h : stack.Exact resolver entries) (hspanned : options.maxDepth = none → Spanned resolver) :
    Reaches resolver options entries stack next := by
  induction hreaches with
  | refl => exact .refl
  | tail _ hstep ih =>
      have hexact := Reaches.exact ih h
      exact ih.tail (hexact.step_withReach hspanned ▸ hstep)

theorem Within.of_withReach {waiting : List OpenVisit}
    (hwithin : Within resolver (withReach resolver options) entries waiting stack next)
    (h : stack.Exact resolver entries) (hspanned : options.maxDepth = none → Spanned resolver) :
    Within resolver options entries waiting stack next := by
  induction hwithin with
  | refl => exact .refl
  | tail _ hstep ih =>
      have hexact := (Within.reaches ih).exact h
      exact ih.tail ⟨hexact.step_withReach hspanned ▸ hstep.1, hstep.2⟩

/-! ### What the stack stands for -/

/-- **A stack of visits is what `explore` is from outside.**  Without a limit that asks
for a resolver that names no more methods than it says. -/
theorem exists_result_explore (resolver : Resolver σ) (options : ExploreOptions)
    (entries : List Label) (session : Session σ)
    (hspanned : options.maxDepth = none → Spanned resolver) :
    ∃ ending, Reaches resolver options entries (start options entries session) ending ∧
      ending.result? = some (explore resolver options entries session) := by
  have hvisits : ∀ entry, Explore.visit resolver (withReach resolver options) entries
      (Explore.reach resolver options) [] entry =
        Explore.visit resolver options entries (Explore.reach resolver options) [] entry :=
    fun _ => visit_withReach []
  obtain ⟨ending, hending, hresult⟩ :
      ∃ ending, Reaches resolver (withReach resolver options) entries
          (start options entries session) ending ∧ ending.result? = some (Explore.concluded _) :=
    exists_result rfl ∅ entries ⟨.fresh options.colors, session⟩
  refine ⟨ending, hending.of_withReach (exact_start _ _ _ _) hspanned, ?_⟩
  rw [hresult, explore_eq_concluded, Explore.visitEntries, funext hvisits]

/-- **One path for all visits.**  Whatever the resolver does, and whatever the options,
the entries and the session are, consider a visit that an exploration makes.

* It is made for the entry at hand, or by the visit before it for a caller that the
  resolver has named and that is on no visit before.
* When it begins, its method is not on the path, and the path holds the methods of the
  visits that wait for it and nothing else, as many as there are hops from the entry.
* While its callers are looked up and examined, the path is that set and its method.
* When it is over, however it ends, the path is what it was when it began.
* It does end, with what `Explore.visit` comes to, if there is a limit or if the span of
  the resolver counts all methods that it ever names. -/
theorem path_exact_and_restored (resolver : Resolver σ) (options : ExploreOptions)
    (entries : List Label) (session : Session σ) {call : CallStack σ} {method : Label}
    {depth : Nat}
    (hreached : Reaches resolver options entries (start options entries session) call)
    (hcall : call.control = .entering method depth) :
    Made resolver entries call.remaining call.waiting method ∧
      (method ∉ call.path ∧ (∀ label, label ∈ call.path ↔ label ∈ call.chain) ∧
        call.chain.length = depth ∧ call.path.size = depth) ∧
      (∀ later, Within resolver options entries call.waiting call later →
        later.waiting = call.waiting →
        (∀ visit, later.control.visit? = some visit →
          visit.method = method ∧ later.path = call.path.insert method) ∧
        ∀ outcome, later.control = .returning outcome → later.path = call.path) ∧
      ((options.maxDepth = none → Spanned resolver) →
        Within resolver options entries call.waiting call (call.returned
          ((Explore.visit resolver options entries (Explore.reach resolver options - depth)
            call.chain method).run call.found))) := by
  have hexact : call.Exact resolver entries := hreached.exact (exact_start _ _ _ _)
  have hmade := hexact.made hcall
  have henters := hexact.enters hcall
  have hmem : ∀ label, label ∈ call.path ↔ label ∈ call.chain := by
    intro label
    rw [henters.path, mem_pathOf]
  have hlength : call.chain.length = depth := (List.length_map _).trans henters.depth.symm
  refine ⟨hmade, ⟨?_, hmem, hlength, ?_⟩, fun later hwithin hwaiting => ?_, fun hspanned => ?_⟩
  · exact fun hon => henters.new ((hmem method).1 hon)
  · have hnodup : call.chain.Nodup := (List.nodup_cons.1 hmade.nodup).2
    rw [henters.path, size_pathOf hnodup, hlength]
  · exact hwithin.path_eq hexact hcall hwaiting
  · have hreturns : Returns resolver (withReach resolver options) entries depth
        (Explore.reach resolver options - depth) := returns rfl
    have hwithin := hreturns call method henters
    rw [visit_withReach] at hwithin
    exact hwithin.of_withReach hexact hspanned

/-- Two methods, each of which calls the other; who calls `b` cannot be found out. -/
def brokenPair : Resolver Unit where
  callers method _ := ⟨if method = ⟨"a"⟩ then .ok [⟨"b"⟩] else .error "lost", (), false⟩
  origin _ _ := ⟨.production, (), false⟩
  span := 1

theorem spanned_brokenPair : Spanned brokenPair := by
  refine ⟨[⟨"b"⟩], Nat.le_refl 1, fun method caller hnames => ?_⟩
  obtain ⟨_, callers, hanswer, hcaller⟩ := hnames
  simp only [brokenPair] at hanswer
  split at hanswer
  case isTrue =>
    cases hanswer
    exact hcaller
  case isFalse => cases hanswer

/-- Everything is followed, without a limit. -/
def unlimited : ExploreOptions :=
  ⟨.all, .drop, none, .ofWords (.scripted #[])⟩

/-- The visit of `b` fails, and leaves `a` on the path and nothing else. -/
theorem path_exact_and_restored_brokenPair :
    ∃ call done, Reaches brokenPair unlimited [⟨"a"⟩]
        (start unlimited [⟨"a"⟩] (.start () false)) call ∧
      call.control = .entering ⟨"b"⟩ 1 ∧
      ⟨"b"⟩ ∉ call.path ∧ (∀ label, label ∈ call.path ↔ label ∈ [⟨"a"⟩]) ∧ call.path.size = 1 ∧
      Reaches brokenPair unlimited [⟨"a"⟩] call done ∧
      done.control = .returning (.error (.lookupFailed ⟨"b"⟩ "lost")) ∧
      done.path = call.path := by
  let entries : List Label := [⟨"a"⟩]
  let begun := (start unlimited entries (.start () false)).choose
  let opened := begun.enter unlimited entries ⟨"a"⟩ 0
  let expanded := opened.expand brokenPair unlimited ⟨⟨"a"⟩, .ofOrdinal 1, 0, [], 0⟩
  let visit : OpenVisit := ⟨⟨"a"⟩, .ofOrdinal 1, 0, [⟨"b"⟩], 0⟩
  let call : CallStack Unit :=
    { expanded.perform (linkCaller entries visit ⟨"b"⟩) with
      control := .entering ⟨"b"⟩ 1
      waiting := [{ visit with position := 1 }] }
  have hbegun : Reaches brokenPair unlimited entries
      (start unlimited entries (.start () false)) begun := .single rfl
  have hopened : Reaches brokenPair unlimited entries begun opened := .single rfl
  have hexpanded : Reaches brokenPair unlimited entries opened expanded := .single rfl
  -- Hashes of texts do not compute here, so that `b` is not on the path is shown apart.
  have hnew : ¬ expanded.path.contains ⟨"b"⟩ = true := by
    change ¬ ((∅ : Std.ExtHashSet Label).insert ⟨"a"⟩).contains ⟨"b"⟩ = true
    simp
  have hcall : Reaches brokenPair unlimited entries expanded call := by
    refine .single ?_
    change some (if expanded.path.contains ⟨"b"⟩ = true then _ else call) = some call
    rw [if_neg hnew]
  have hreached := ((hbegun.trans hopened).trans hexpanded).trans hcall
  obtain ⟨-, ⟨hoff, hpath, -, hsize⟩, hkept, hreturns⟩ :=
    path_exact_and_restored brokenPair unlimited entries (.start () false) hreached rfl
  have hended := hreturns fun _ => spanned_brokenPair
  have hrestored := (hkept _ hended rfl).2 _ rfl
  exact ⟨call, _, hreached, rfl, hoff, hpath, hsize, hended.reaches, rfl, hrestored⟩

end CallStack

end CallerGraph
