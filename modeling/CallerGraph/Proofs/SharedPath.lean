import CallerGraph.Exploration.CallStack
import CallerGraph.Proofs.HeededStops
import Mathlib.Logic.Relation

/-!
# One path for all visits

The visits of an exploration share one set, and at every moment it holds the
methods of the chain at hand and nothing else.  What carries this is
`CallStack.Exact`, which every step keeps: the path is that of the visits that
wait, with the method of the newest visit while its callers are followed.  What a
step can do is said once, by `CallStack.Moves`.

`CallStack.Made` is the chain itself: from the newest visit on, each method is a
caller that was found for the next, and the last one is the entry at hand.  As no
method is on it twice, taking the method of a visit out of the path leaves what
was there before, whichever way the visit ends.

`CallStack.Within` cuts the moments of one visit out of an exploration, from its
call to its return, those of the visits that it makes included.

Nothing is assumed of the resolver.  Without a depth limit it can keep an
exploration going for ever, and what is said holds at every moment all the same.
-/

namespace CallerGraph

namespace CallStack

variable {σ : Type} {resolver : Resolver σ} {options : ExploreOptions} {entries : List Label}
  {stack next : CallStack σ}

/-- Can one moment be reached from another? -/
def Reaches (resolver : Resolver σ) (options : ExploreOptions) (entries : List Label) :
    CallStack σ → CallStack σ → Prop :=
  Relation.ReflTransGen fun stack next => stack.step resolver options entries = some next

/-- Is there an answer of the resolver by which the caller calls the method? -/
def Names (resolver : Resolver σ) (method caller : Label) : Prop :=
  ∃ state callers, (resolver.callers method state).answer = .ok callers ∧ caller ∈ callers

/-- Is a visit of the method made by the newest of the visits that wait, for a
caller that it has found and just taken up, or for the entry at hand if none
waits?  The same is asked of the visits that wait. -/
inductive Made (resolver : Resolver σ) (entries remaining : List Label) :
    List OpenVisit → Label → Prop
  | entry {earlier : List Label} {method : Label}
      (hentries : entries = earlier ++ method :: remaining) :
      Made resolver entries remaining [] method
  | caller {visit : OpenVisit} {waiting : List OpenVisit} {caller : Label}
      (hmade : Made resolver entries remaining waiting visit.method)
      (hdepth : visit.depth = waiting.length)
      (hfound : ∀ other ∈ visit.callers, Names resolver visit.method other)
      (htaken : ∃ position, visit.position = position + 1 ∧
        visit.callers[position]? = some caller)
      (hnew : caller ∉ visit.method :: waiting.map OpenVisit.method) :
      Made resolver entries remaining (visit :: waiting) caller

/-- No method is on a chain twice. -/
theorem Made.nodup {remaining : List Label} {waiting : List OpenVisit} {method : Label}
    (h : Made resolver entries remaining waiting method) :
    (method :: waiting.map OpenVisit.method).Nodup := by
  induction h with
  | entry => exact List.nodup_singleton _
  | caller _ _ _ _ hnew ih => exact ih.cons hnew

/-! ### The path of a chain -/

/-- The set of the methods of a chain. -/
def pathOf (chain : List Label) : Std.ExtHashSet Label :=
  .ofList chain

theorem mem_pathOf {chain : List Label} {label : Label} : label ∈ pathOf chain ↔ label ∈ chain := by
  rw [pathOf, Std.ExtHashSet.mem_ofList, List.contains_iff_mem]

theorem pathOf_nil : pathOf [] = ∅ := by
  apply Std.ExtHashSet.ext_mem
  simp [mem_pathOf]

theorem insert_pathOf (method : Label) (chain : List Label) :
    (pathOf chain).insert method = pathOf (method :: chain) := by
  apply Std.ExtHashSet.ext_mem
  intro label
  rw [Std.ExtHashSet.mem_insert, mem_pathOf, mem_pathOf, List.mem_cons, beq_iff_eq, eq_comm]

/-- A method that comes into the path and leaves it again has changed nothing. -/
theorem erase_pathOf {method : Label} {chain : List Label} (hnew : method ∉ chain) :
    (pathOf (method :: chain)).erase method = pathOf chain := by
  apply Std.ExtHashSet.ext_mem
  intro label
  rw [Std.ExtHashSet.mem_erase, mem_pathOf, mem_pathOf, List.mem_cons, beq_eq_false_iff_ne]
  constructor
  · intro h
    exact h.2.resolve_left h.1.symm
  · intro h
    exact ⟨fun heq => hnew (heq ▸ h), .inr h⟩

theorem size_pathOf {chain : List Label} (hnodup : chain.Nodup) :
    (pathOf chain).size = chain.length := by
  apply Std.ExtHashSet.size_ofList
  exact hnodup.imp fun hne => beq_false_of_ne hne

/-! ### What a step can do -/

/-- What is found are callers that the resolver names. -/
theorem names_of_run {scope : Scope} {method : Label} {below accepted : List Label}
    {found left : Exploration σ}
    (h : (Explore.callersInScope resolver scope method below).run found = .ok accepted left) :
    ∀ caller ∈ accepted, Names resolver method caller := by
  intro caller hcaller
  obtain ⟨-, callers, session, hasked, -, rfl, -⟩ := Explore.eq_ok_of_run_callersInScope h
  obtain ⟨state, hmoment, -⟩ := Session.mem_screen.1 hcaller
  obtain ⟨other, hother, heq⟩ := List.mem_map.1 (Resolver.query_mem_of_mem_moments hmoment)
  obtain rfl : other = caller := Query.origin.inj heq
  exact ⟨found.session.state, callers, congrArg Prod.fst hasked, List.mem_eraseDups.1 hother⟩

/-- The exploration when it was told how many callers were found. -/
def toldCallers (method : Label) (depth : Nat) (callers : List Label) (found : Exploration σ) :
    Exploration σ :=
  ⟨found.draft, found.session.tell [.expanding method callers.length depth]⟩

theorem expand_of_error {visit : OpenVisit} {error : GraphError} {left : Exploration σ}
    (h : (Explore.callersInScope resolver options.scope visit.method stack.chain).run stack.found =
      .error error left) :
    stack.expand resolver options visit =
      { stack with control := .closing visit (.error error), found := left } := by
  simp only [expand, EStateM.run_bind, h]

theorem expand_of_ok {visit : OpenVisit} {callers : List Label} {left : Exploration σ}
    (h : (Explore.callersInScope resolver options.scope visit.method stack.chain).run stack.found =
      .ok callers left) :
    stack.expand resolver options visit =
      { stack with
        control := .examining { visit with callers }
        found := toldCallers visit.method visit.depth callers left } := by
  simp only [expand, EStateM.run_bind, h]
  rfl

theorem perform_eq (action : Explore σ Unit) (stack : CallStack σ) :
    stack.perform action = { stack with found := Explore.leftBy (action.run stack.found) } := by
  unfold perform
  cases action.run stack.found <;> rfl

/-- The steps, as far as they are about the visits and the path. -/
inductive Moves (resolver : Resolver σ) : CallStack σ → CallStack σ → Prop
  | conclude {waiting path found} :
      Moves resolver ⟨.choosing, waiting, path, [], found⟩
        ⟨.finished (.ok ()), waiting, path, [], found⟩
  | choose {entry waiting path remaining found} :
      Moves resolver ⟨.choosing, waiting, path, entry :: remaining, found⟩
        ⟨.entering entry 0, waiting, ∅, remaining, found⟩
  /-- A stop was asked for, or the depth limit is reached. -/
  | refuse {method depth outcome waiting path remaining found left} :
      Moves resolver ⟨.entering method depth, waiting, path, remaining, found⟩
        ⟨.returning outcome, waiting, path, remaining, left⟩
  | join {method depth target waiting path remaining found left} :
      Moves resolver ⟨.entering method depth, waiting, path, remaining, found⟩
        ⟨.expanding ⟨method, target, depth, [], 0⟩, waiting, path.insert method, remaining, left⟩
  | fail {visit error waiting path remaining found left} :
      Moves resolver ⟨.expanding visit, waiting, path, remaining, found⟩
        ⟨.closing visit (.error error), waiting, path, remaining, left⟩
  | find {visit callers waiting path remaining found left}
      (hnames : ∀ caller ∈ callers, Names resolver visit.method caller) :
      Moves resolver ⟨.expanding visit, waiting, path, remaining, found⟩
        ⟨.examining { visit with callers }, waiting, path, remaining, left⟩
  | finish {visit waiting path remaining found} :
      Moves resolver ⟨.examining visit, waiting, path, remaining, found⟩
        ⟨.closing visit (.ok ()), waiting, path, remaining, found⟩
  /-- A caller closes a cycle. -/
  | skip {visit waiting path remaining found left} :
      Moves resolver ⟨.examining visit, waiting, path, remaining, found⟩
        ⟨.examining { visit with position := visit.position + 1 }, waiting, path, remaining, left⟩
  | follow {visit caller waiting path remaining found left}
      (hcaller : visit.callers[visit.position]? = some caller) (hnew : caller ∉ path) :
      Moves resolver ⟨.examining visit, waiting, path, remaining, found⟩
        ⟨.entering caller (visit.depth + 1),
          { visit with position := visit.position + 1 } :: waiting, path, remaining, left⟩
  | leave {visit outcome waiting path remaining found} :
      Moves resolver ⟨.closing visit outcome, waiting, path, remaining, found⟩
        ⟨.returning outcome, waiting, path.erase visit.method, remaining, found⟩
  | rest {path remaining found} :
      Moves resolver ⟨.returning (.ok ()), [], path, remaining, found⟩
        ⟨.choosing, [], path, remaining, found⟩
  | abandon {error path remaining found} :
      Moves resolver ⟨.returning (.error error), [], path, remaining, found⟩
        ⟨.finished (.error error), [], path, remaining, found⟩
  | resume {visit waiting path remaining found} :
      Moves resolver ⟨.returning (.ok ()), visit :: waiting, path, remaining, found⟩
        ⟨.examining visit, waiting, path, remaining, found⟩
  | unwind {visit error waiting path remaining found} :
      Moves resolver ⟨.returning (.error error), visit :: waiting, path, remaining, found⟩
        ⟨.closing visit (.error error), waiting, path, remaining, found⟩

theorem moves_choose (h : stack.control = .choosing) : Moves resolver stack stack.choose := by
  obtain ⟨_, waiting, path, remaining, found⟩ := stack
  cases h
  cases remaining with
  | nil => exact .conclude
  | cons entry remaining => exact .choose

theorem moves_enter {method : Label} {depth : Nat} (h : stack.control = .entering method depth) :
    Moves resolver stack (stack.enter options entries method depth) := by
  obtain ⟨_, waiting, path, remaining, found⟩ := stack
  cases h
  unfold enter
  dsimp only
  split
  case h_1 => exact .refuse
  case h_2 =>
    split
    case isTrue => exact .refuse
    case isFalse => exact .join

theorem moves_expand {visit : OpenVisit} (h : stack.control = .expanding visit) :
    Moves resolver stack (stack.expand resolver options visit) := by
  cases hrun : (Explore.callersInScope resolver options.scope visit.method stack.chain).run
      stack.found with
  | error error left =>
      rw [expand_of_error hrun]
      obtain ⟨_, waiting, path, remaining, found⟩ := stack
      cases h
      exact .fail
  | ok callers left =>
      rw [expand_of_ok hrun]
      have hnames := names_of_run hrun
      obtain ⟨_, waiting, path, remaining, found⟩ := stack
      cases h
      exact .find hnames

theorem moves_examine {visit : OpenVisit} (h : stack.control = .examining visit) :
    Moves resolver stack (stack.examine options entries visit) := by
  obtain ⟨_, waiting, path, remaining, found⟩ := stack
  cases h
  unfold examine
  dsimp only
  split
  case h_1 => exact .finish
  case h_2 caller hcaller =>
    split
    case isTrue =>
      rw [perform_eq]
      exact .skip
    case isFalse hnew =>
      rw [perform_eq]
      exact .follow hcaller fun hon => hnew (Std.ExtHashSet.contains_iff_mem.2 hon)

theorem moves_close {visit : OpenVisit} {outcome : Except GraphError Unit}
    (h : stack.control = .closing visit outcome) :
    Moves resolver stack (stack.close visit outcome) := by
  obtain ⟨_, waiting, path, remaining, found⟩ := stack
  cases h
  exact .leave

theorem moves_resume {outcome : Except GraphError Unit} (h : stack.control = .returning outcome) :
    Moves resolver stack (stack.resume outcome) := by
  obtain ⟨_, waiting, path, remaining, found⟩ := stack
  cases h
  cases waiting with
  | nil =>
      cases outcome with
      | ok _ => exact .rest
      | error error => exact .abandon
  | cons visit waiting =>
      cases outcome with
      | ok _ => exact .resume
      | error error => exact .unwind

/-- There are no other steps. -/
theorem moves_of_step (hstep : stack.step resolver options entries = some next) :
    Moves resolver stack next := by
  unfold step at hstep
  cases hcontrol : stack.control with
  | choosing =>
      simp only [hcontrol, Option.some.injEq] at hstep
      exact hstep ▸ moves_choose hcontrol
  | entering method depth =>
      simp only [hcontrol, Option.some.injEq] at hstep
      exact hstep ▸ moves_enter hcontrol
  | expanding visit =>
      simp only [hcontrol, Option.some.injEq] at hstep
      exact hstep ▸ moves_expand hcontrol
  | examining visit =>
      simp only [hcontrol, Option.some.injEq] at hstep
      exact hstep ▸ moves_examine hcontrol
  | closing visit outcome =>
      simp only [hcontrol, Option.some.injEq] at hstep
      exact hstep ▸ moves_close hcontrol
  | returning outcome =>
      simp only [hcontrol, Option.some.injEq] at hstep
      exact hstep ▸ moves_resume hcontrol
  | finished outcome =>
      simp only [hcontrol] at hstep
      cases hstep

/-! ### What every step keeps -/

/-- The moment of a visit that follows callers: its method is on the path together
with those of the visits that wait. -/
structure Holds (resolver : Resolver σ) (entries : List Label) (stack : CallStack σ)
    (visit : OpenVisit) : Prop where
  made : Made resolver entries stack.remaining stack.waiting visit.method
  depth : visit.depth = stack.waiting.length
  callers : ∀ caller ∈ visit.callers, Names resolver visit.method caller
  path : stack.path = pathOf (visit.method :: stack.chain)

/-- Is the path the one of the chain at hand? -/
def Exact (resolver : Resolver σ) (entries : List Label) (stack : CallStack σ) : Prop :=
  match stack.control with
  | .choosing => stack.waiting = [] ∧ stack.path = ∅ ∧
      ∃ earlier, entries = earlier ++ stack.remaining
  | .entering method depth => Made resolver entries stack.remaining stack.waiting method ∧
      depth = stack.waiting.length ∧ stack.path = pathOf stack.chain
  | .expanding visit | .examining visit | .closing visit _ => stack.Holds resolver entries visit
  | .returning _ => (∃ method, Made resolver entries stack.remaining stack.waiting method) ∧
      stack.path = pathOf stack.chain
  | .finished _ => stack.waiting = [] ∧ stack.path = ∅

theorem exact_start (resolver : Resolver σ) (options : ExploreOptions) (entries : List Label)
    (session : Session σ) : (start options entries session).Exact resolver entries :=
  ⟨rfl, rfl, [], rfl⟩

/-- **A step keeps the path exact.** -/
theorem Exact.step (h : stack.Exact resolver entries)
    (hstep : stack.step resolver options entries = some next) : next.Exact resolver entries := by
  cases moves_of_step hstep with
  | conclude => exact ⟨h.1, h.2.1⟩
  | choose =>
      obtain ⟨rfl, -, earlier, hentries⟩ := h
      exact ⟨.entry hentries, rfl, pathOf_nil.symm⟩
  | refuse => exact ⟨⟨_, h.1⟩, h.2.2⟩
  | @join method _ _ _ _ _ _ _ =>
      obtain ⟨hmade, hdepth, hpath⟩ := h
      refine ⟨hmade, hdepth, List.forall_mem_nil _, ?_⟩
      exact (congrArg (·.insert method) hpath).trans (insert_pathOf _ _)
  | fail => exact ⟨h.made, h.depth, h.callers, h.path⟩
  | find hnames => exact ⟨h.made, h.depth, hnames, h.path⟩
  | finish => exact ⟨h.made, h.depth, h.callers, h.path⟩
  | skip => exact ⟨h.made, h.depth, h.callers, h.path⟩
  | follow hcaller hoff =>
      have hpath := h.path
      dsimp only at hpath
      rw [hpath, mem_pathOf] at hoff
      exact ⟨.caller h.made h.depth h.callers ⟨_, rfl, hcaller⟩ hoff,
        congrArg (· + 1) h.depth, hpath⟩
  | @leave visit _ _ _ _ _ =>
      have hnew := (List.nodup_cons.1 h.made.nodup).1
      exact ⟨⟨_, h.made⟩, (congrArg (·.erase visit.method) h.path).trans (erase_pathOf hnew)⟩
  | rest =>
      obtain ⟨⟨method, hmade⟩, hpath⟩ := h
      cases hmade with
      | @entry earlier _ hentries =>
          exact ⟨rfl, hpath.trans pathOf_nil, earlier ++ [method], by simpa using hentries⟩
  | abandon => exact ⟨rfl, h.2.trans pathOf_nil⟩
  | resume | unwind =>
      obtain ⟨⟨_, hmade⟩, hpath⟩ := h
      cases hmade with
      | caller hmade hdepth hfound _ _ => exact ⟨hmade, hdepth, hfound, hpath⟩

/-- At every moment of an exploration the path is exact. -/
theorem Reaches.exact (hreaches : Reaches resolver options entries stack next)
    (h : stack.Exact resolver entries) : next.Exact resolver entries := by
  induction hreaches with
  | refl => exact h
  | tail _ hstep ih => exact ih.step hstep

/-! ### What is known at a moment -/

/-- The visit at hand, while its callers are followed. -/
def Control.visit? : Control → Option OpenVisit
  | .expanding visit | .examining visit | .closing visit _ => some visit
  | .choosing | .entering _ _ | .returning _ | .finished _ => none

/-- A visit begins, and the path is the one of the visits that wait. -/
structure Enters (stack : CallStack σ) (method : Label) (depth : Nat) : Prop where
  control : stack.control = .entering method depth
  new : method ∉ stack.chain
  depth : depth = stack.waiting.length
  path : stack.path = pathOf stack.chain

theorem Exact.made {method : Label} {depth : Nat} (h : stack.Exact resolver entries)
    (hcontrol : stack.control = .entering method depth) :
    Made resolver entries stack.remaining stack.waiting method := by
  unfold Exact at h
  rw [hcontrol] at h
  exact h.1

theorem Exact.enters {method : Label} {depth : Nat} (h : stack.Exact resolver entries)
    (hcontrol : stack.control = .entering method depth) : stack.Enters method depth := by
  have hnew := (List.nodup_cons.1 (h.made hcontrol).nodup).1
  unfold Exact at h
  rw [hcontrol] at h
  exact ⟨hcontrol, hnew, h.2.1, h.2.2⟩

theorem Exact.holds {visit : OpenVisit} (h : stack.Exact resolver entries)
    (hcontrol : stack.control.visit? = some visit) : stack.Holds resolver entries visit := by
  unfold Exact at h
  cases hstack : stack.control with
  | expanding _ | examining _ | closing _ _ =>
      rw [hstack] at h hcontrol
      cases hcontrol
      exact h
  | choosing | entering _ _ | returning _ | finished _ =>
      rw [hstack] at hcontrol
      cases hcontrol

theorem Exact.path_of_returning {outcome : Except GraphError Unit}
    (h : stack.Exact resolver entries) (hcontrol : stack.control = .returning outcome) :
    stack.path = pathOf stack.chain := by
  unfold Exact at h
  rw [hcontrol] at h
  exact h.2

/-! ### The moments of a visit -/

/-- Is a visit over, for which these wait? -/
def ReturnsTo (stack : CallStack σ) (waiting : List OpenVisit) : Prop :=
  (∃ outcome, stack.control = .returning outcome) ∧ stack.waiting = waiting

/-- Can one moment be reached from another, without a return to these visits in
between? -/
def Within (resolver : Resolver σ) (options : ExploreOptions) (entries : List Label)
    (waiting : List OpenVisit) : CallStack σ → CallStack σ → Prop :=
  Relation.ReflTransGen fun stack next =>
    stack.step resolver options entries = some next ∧ ¬ stack.ReturnsTo waiting

theorem Within.reaches {waiting : List OpenVisit}
    (h : Within resolver options entries waiting stack next) :
    Reaches resolver options entries stack next :=
  Relation.ReflTransGen.mono (fun _ _ hstep => hstep.1) _ _ h

/-- The method of the visit at hand. -/
def Control.method? : Control → Option Label
  | .entering method _ => some method
  | .expanding visit | .examining visit | .closing visit _ => some visit.method
  | .choosing | .returning _ | .finished _ => none

theorem Control.method?_of_visit? {control : Control} {visit : OpenVisit}
    (h : control.visit? = some visit) : control.method? = some visit.method := by
  cases control with
  | expanding _ | examining _ | closing _ _ =>
      cases h
      rfl
  | choosing | entering _ _ | returning _ | finished _ => cases h

/-- Is this a moment of the visit of a method that was made at `call`?  Before the
visit is over, the method is that of the visit at hand or, with others on top, of one
that waits. -/
def Belongs (call : CallStack σ) (method : Label) (stack : CallStack σ) : Prop :=
  ∃ inner, stack.waiting = inner ++ call.waiting ∧
    (stack.ReturnsTo call.waiting ∨
      (stack.control.method?.toList ++ inner.map OpenVisit.method).getLast? = some method)

section Belongs

variable {call : CallStack σ} {method : Label}

/-- A visit that begins is its own. -/
theorem belongs_self {depth : Nat} (h : stack.control = .entering method depth) :
    stack.Belongs method stack := by
  refine ⟨[], rfl, .inr ?_⟩
  rw [h]
  rfl

/-- While a visit is at work its method is the last of those on top of the call. -/
theorem Belongs.getLast? {current : Label} (h : call.Belongs method stack)
    (hcurrent : stack.control.method? = some current) :
    ∃ inner, stack.waiting = inner ++ call.waiting ∧
      (current :: inner.map OpenVisit.method).getLast? = some method := by
  obtain ⟨inner, hwaiting, ⟨⟨outcome, hreturning⟩, -⟩ | hlast⟩ := h
  · rw [hreturning] at hcurrent
    cases hcurrent
  · rw [hcurrent] at hlast
    exact ⟨inner, hwaiting, hlast⟩

/-- When a visit at work ends, it is the one of the call or one that waits is not done. -/
theorem belongs_of_returning {current : Label} {outcome : Except GraphError Unit}
    {inner : List OpenVisit} (hcontrol : stack.control = .returning outcome)
    (hinner : stack.waiting = inner ++ call.waiting)
    (hlast : (current :: inner.map OpenVisit.method).getLast? = some method) :
    call.Belongs method stack := by
  refine ⟨inner, hinner, ?_⟩
  cases inner with
  | nil => exact .inl ⟨⟨outcome, hcontrol⟩, hinner⟩
  | cons visit inner =>
      rw [hcontrol]
      exact .inr (List.getLast?_cons_cons.symm.trans hlast)

/-- A step before its return stays within a visit. -/
theorem Belongs.step (h : call.Belongs method stack)
    (hstep : stack.step resolver options entries = some next)
    (hgoes : ¬ stack.ReturnsTo call.waiting) : call.Belongs method next := by
  obtain ⟨inner, hinner, hended | hlast⟩ := h
  · exact absurd hended hgoes
  · cases moves_of_step hstep with
    | conclude | join | fail | find _ | finish | skip => exact ⟨inner, hinner, .inr hlast⟩
    | follow _ _ =>
        exact ⟨_ :: inner, congrArg (_ :: ·) hinner, .inr (List.getLast?_cons_cons.trans hlast)⟩
    | refuse | leave => exact belongs_of_returning rfl hinner hlast
    -- Now no visit is at work, so one that waits is not done.
    | choose =>
        cases inner with
        | nil => cases hlast
        | cons first inner =>
            exact ⟨first :: inner, hinner, .inr (List.getLast?_cons_cons.trans hlast)⟩
    | rest | abandon =>
        cases inner with
        | nil => cases hlast
        | cons first inner => cases hinner
    | resume | unwind =>
        cases inner with
        | nil => cases hlast
        | cons first inner =>
            cases hinner
            exact ⟨inner, rfl, .inr hlast⟩

/-- All that comes before its return, and the return, is of the visit. -/
theorem Within.belongs {depth : Nat}
    (hwithin : Within resolver options entries stack.waiting stack next)
    (hcontrol : stack.control = .entering method depth) : stack.Belongs method next := by
  induction hwithin with
  | refl => exact belongs_self hcontrol
  | tail _ hstep ih => exact ih.step hstep.1 hstep.2

/-- With no other visit on top, the path is the one that a visit has found, and its own
method is in it besides while its callers are followed. -/
theorem Within.path_eq {depth : Nat}
    (hwithin : Within resolver options entries stack.waiting stack next)
    (h : stack.Exact resolver entries) (hcontrol : stack.control = .entering method depth)
    (hwaiting : next.waiting = stack.waiting) :
    (∀ visit, next.control.visit? = some visit →
      visit.method = method ∧ next.path = stack.path.insert method) ∧
      ∀ outcome, next.control = .returning outcome → next.path = stack.path := by
  have hexact : next.Exact resolver entries := hwithin.reaches.exact h
  have hbelongs : stack.Belongs method next := hwithin.belongs hcontrol
  have hpath : stack.path = pathOf stack.chain := (h.enters hcontrol).path
  have hchain : next.chain = stack.chain := congrArg (List.map OpenVisit.method) hwaiting
  constructor
  · intro visit hvisit
    obtain ⟨inner, hinner, hlast⟩ := hbelongs.getLast? (Control.method?_of_visit? hvisit)
    obtain rfl : inner = [] := List.self_eq_append_left.1 (hwaiting.symm.trans hinner)
    obtain rfl : visit.method = method := Option.some.inj hlast
    refine ⟨rfl, ?_⟩
    rw [(hexact.holds hvisit).path, hchain, hpath, insert_pathOf]
  · intro outcome hreturning
    rw [hexact.path_of_returning hreturning, hchain, hpath]

end Belongs

end CallStack

end CallerGraph
