import CallerGraph.Proofs.Endings

/-!
# Dropping cycles and marking them

Two explorations of the same source, one under dropping and one under marking,
go side by side.  They ask the same questions and tell the same events, and they
gather the same methods under the same identifiers: what marking registers
besides is on the chain and so is known already.  The calls that are linked are
the same too, except for recursive ones under marking.

`Twins` says this of two explorations under way, and each step of the two keeps
it.  Of the calls it does not compare what has become of them, since a recursive
call may stand where a plain one comes later; it compares the lists of all that
were linked.
-/

namespace CallerGraph

/-- Recursive calls can be left out before the calls are settled or after. -/
theorem CallSet.settled_filter_plain {calls : List Call} {call : Call} :
    Settled (calls.filter fun call => !call.recursive) call ↔
      Settled calls call ∧ call.recursive = false := by
  simp only [Settled, List.mem_filter, Bool.not_eq_true']
  constructor
  · intro h
    obtain ⟨⟨added, ⟨hadded, hplain⟩, hends⟩, hrecursive⟩ := h
    have hnot : ¬ call.recursive = true := by
      intro hcall
      have hfalse := hrecursive.1 hcall added ⟨hadded, hplain⟩ hends
      rw [hplain] at hfalse
      cases hfalse
    refine ⟨⟨⟨added, hadded, hends⟩, iff_of_false hnot fun hall => ?_⟩,
      Bool.eq_false_of_not_eq_true hnot⟩
    have hfalse := hall added hadded hends
    rw [hplain] at hfalse
    cases hfalse
  · intro h
    obtain ⟨⟨-, hrecursive⟩, hplain⟩ := h
    have hsome : ¬ ∀ added ∈ calls, added.ends = call.ends → added.recursive = true := by
      rw [← hrecursive, hplain]
      exact Bool.false_ne_true
    simp only [not_forall] at hsome
    obtain ⟨added, hadded, hends, hother⟩ := hsome
    have hkept := Bool.eq_false_of_not_eq_true hother
    refine ⟨⟨added, ⟨hadded, hkept⟩, hends⟩, iff_of_false ?_ fun hall => ?_⟩
    · rw [hplain]
      exact Bool.false_ne_true
    · exact hother (hall added ⟨hadded, hkept⟩ hends)

variable {σ : Type} {resolver : Resolver σ} {entries : List Label}

/-- The options with another cycle policy. -/
def ExploreOptions.under (options : ExploreOptions) (cycles : CyclePolicy) : ExploreOptions :=
  { options with cycles }

/-- Two explorations, under dropping and under marking, that have done the same
except for linking recursive calls, and know all methods of a chain. -/
structure Twins (entries chain : List Label) (dropped marked : Exploration σ) : Prop where
  session : dropped.session = marked.session
  registry : dropped.draft.registry = marked.draft.registry
  tidy : marked.draft.Tidy entries
  known : ∀ label ∈ chain, label ∈ marked.draft.registry.labels
  calls : ∃ linked, marked.draft.calls = .ofList linked ∧
    dropped.draft.calls = .ofList (linked.filter fun call => !call.recursive)

namespace Twins

variable {chain : List Label} {dropped marked : Exploration σ}

theorem fresh (entries : List Label) (colors : ColorSource) (session : Session σ) :
    Twins entries [] ⟨.fresh colors, session⟩ ⟨.fresh colors, session⟩ where
  session := rfl
  registry := rfl
  tidy := Draft.tidy_fresh entries colors
  known := List.forall_mem_nil _
  calls := ⟨[], rfl, rfl⟩

theorem mono {shorter : List Label} (h : Twins entries chain dropped marked)
    (hsub : shorter ⊆ chain) : Twins entries shorter dropped marked :=
  { h with known := fun label hlabel => h.known label (hsub hlabel) }

/-- What happens to the talk only happens to both. -/
theorem withSession (h : Twins entries chain dropped marked) (session : Session σ) :
    Twins entries chain ⟨dropped.draft, session⟩ ⟨marked.draft, session⟩ :=
  ⟨rfl, h.registry, h.tidy, h.known, h.calls⟩

/-- A plain call is linked on both sides. -/
theorem linkPlain (h : Twins entries chain dropped marked) (source target : NodeId) :
    Twins entries chain
      ⟨dropped.draft.link ⟨source, target, false⟩, dropped.session⟩
      ⟨marked.draft.link ⟨source, target, false⟩, marked.session⟩ where
  session := h.session
  registry := h.registry
  tidy := ⟨h.tidy.orderly, h.tidy.flagged⟩
  known := h.known
  calls := by
    obtain ⟨linked, hmarked, hdropped⟩ := h.calls
    refine ⟨linked ++ [⟨source, target, false⟩], ?_, ?_⟩
    · rw [CallSet.ofList_append_singleton, ← hmarked]
      rfl
    · rw [List.filter_append, List.filter_singleton]
      exact (congrArg (CallSet.add · _) hdropped).trans (CallSet.ofList_append_singleton _ _).symm

/-- A recursive call is linked on one side. -/
theorem linkRecursive (h : Twins entries chain dropped marked) (source target : NodeId) :
    Twins entries chain dropped
      ⟨marked.draft.link ⟨source, target, true⟩, marked.session⟩ where
  session := h.session
  registry := h.registry
  tidy := ⟨h.tidy.orderly, h.tidy.flagged⟩
  known := h.known
  calls := by
    obtain ⟨linked, hmarked, hdropped⟩ := h.calls
    refine ⟨linked ++ [⟨source, target, true⟩], ?_, ?_⟩
    · rw [CallSet.ofList_append_singleton, ← hmarked]
      rfl
    · rw [List.filter_append, List.filter_singleton, hdropped]
      exact congrArg CallSet.ofList (List.append_nil _).symm

end Twins

/-- Two steps end alike: with equal values and as twins, or with equal errors and
the same talk behind them. -/
inductive EndsAlike {α : Type} (entries chain : List Label) :
    EStateM.Result GraphError (Exploration σ) α →
      EStateM.Result GraphError (Exploration σ) α → Prop
  | ok {value : α} {dropped marked : Exploration σ} (htwins : Twins entries chain dropped marked) :
      EndsAlike entries chain (.ok value dropped) (.ok value marked)
  | error {error : GraphError} {dropped marked : Exploration σ}
      (hsession : dropped.session = marked.session) :
      EndsAlike entries chain (.error error dropped) (.error error marked)

namespace Explore

variable {α β : Type} {chain known further : List Label}

/-- Do the two steps, begun by twins that know one chain, end alike and then know
the other? -/
def Alike (entries chain known : List Label) (drop mark : Explore σ α) : Prop :=
  ∀ dropped marked, Twins entries chain dropped marked →
    EndsAlike entries known (drop.run dropped) (mark.run marked)

theorem Alike.bind {drop mark : Explore σ α} {dropNext markNext : α → Explore σ β}
    (hstep : Alike entries chain known drop mark)
    (hnext : ∀ value, Alike entries known further (dropNext value) (markNext value)) :
    Alike entries chain further (drop >>= dropNext) (mark >>= markNext) := by
  intro dropped marked htwins
  have hends := hstep dropped marked htwins
  rw [EStateM.run_bind, EStateM.run_bind]
  generalize drop.run dropped = dropEnd at hends
  generalize mark.run marked = markEnd at hends
  cases hends with
  | ok hmiddle => exact hnext _ _ _ hmiddle
  | error hsession => exact .error hsession

theorem alike_pure (value : α) :
    Alike entries chain chain (pure value : Explore σ α) (pure value) :=
  fun _ _ htwins => .ok htwins

theorem Alike.mono {shorter : List Label} {drop mark : Explore σ α}
    (h : Alike entries chain known drop mark) (hsub : shorter ⊆ known) :
    Alike entries chain shorter drop mark := by
  intro dropped marked htwins
  have hends := h dropped marked htwins
  generalize drop.run dropped = dropEnd at hends
  generalize mark.run marked = markEnd at hends
  cases hends with
  | ok hleft => exact .ok (hleft.mono hsub)
  | error hsession => exact .error hsession

theorem alike_forM {items : List α} {drop mark : α → Explore σ PUnit}
    (hstep : ∀ item, Alike entries chain chain (drop item) (mark item)) :
    Alike entries chain chain (items.forM drop) (items.forM mark) := by
  induction items with
  | nil => exact alike_pure _
  | cons item items ih => exact (hstep item).bind fun _ => ih

/-- A step that looks at the talk and changes only the talk. -/
theorem alike_of_talk {step : Explore σ α}
    (h : ∀ session, (∃ value left, ∀ draft, step.run ⟨draft, session⟩ = .ok value ⟨draft, left⟩) ∨
      ∃ error left, ∀ draft, step.run ⟨draft, session⟩ = .error error ⟨draft, left⟩) :
    Alike entries chain chain step step := by
  intro dropped marked htwins
  obtain ⟨dropDraft, session⟩ := dropped
  obtain ⟨markDraft, other⟩ := marked
  obtain rfl : session = other := htwins.session
  obtain ⟨value, left, hrun⟩ | ⟨error, left, hrun⟩ := h session
  · rw [hrun, hrun]
    exact .ok (htwins.withSession left)
  · rw [hrun, hrun]
    exact .error rfl

theorem alike_check : Alike entries chain chain (check : Explore σ Unit) check := by
  refine alike_of_talk fun session => ?_
  cases hcancelled : session.cancelled with
  | false => exact .inl ⟨(), session, fun draft => run_check hcancelled⟩
  | true => exact .inr ⟨.cancelled, session, fun draft => run_check_of_cancelled hcancelled⟩

theorem alike_tell (event : Event) :
    Alike entries chain chain (tell event : Explore σ Unit) (tell event) :=
  alike_of_talk fun session => .inl ⟨(), session.tell [event], fun _ => rfl⟩

theorem alike_callersInScope (scope : Scope) (method : Label) (below : List Label) :
    Alike entries chain chain (callersInScope resolver scope method below)
      (callersInScope resolver scope method below) := by
  refine alike_of_talk fun session => ?_
  simp only [run_callersInScope_eq]
  cases hbefore : session.cancelled with
  | true => exact .inr ⟨_, session, fun _ => rfl⟩
  | false =>
      cases hanswer : (session.askCallers resolver method below).1 with
      | error message => exact .inr ⟨_, _, fun _ => rfl⟩
      | ok callers =>
          cases hafter : (session.askCallers resolver method below).2.cancelled with
          | true => exact .inr ⟨_, _, fun _ => rfl⟩
          | false => exact .inl ⟨_, _, fun _ => rfl⟩

/-- A method is registered alike, and known afterwards. -/
theorem alike_register (method : Label) :
    Alike entries chain (method :: chain) (register entries method : Explore σ NodeId)
      (register entries method) := by
  intro dropped marked htwins
  obtain ⟨⟨registry, dropCalls⟩, session⟩ := dropped
  obtain ⟨⟨other, markCalls⟩, otherSession⟩ := marked
  obtain rfl : session = otherSession := htwins.session
  obtain rfl : registry = other := htwins.registry
  rw [run_register, run_register]
  refine .ok ⟨rfl, rfl, htwins.tidy.register method, ?_, htwins.calls⟩
  intro label hlabel
  rw [Draft.registry_register, Registry.mem_labels_register]
  rcases List.mem_cons.1 hlabel with rfl | hlabel
  · exact .inl rfl
  · exact .inr (htwins.known label hlabel)

theorem alike_link (source target : NodeId) :
    Alike entries chain chain (link ⟨source, target, false⟩ : Explore σ Unit)
      (link ⟨source, target, false⟩) :=
  fun _ _ htwins => .ok (htwins.linkPlain source target)

/-- Marking a cycle goes unseen but for the recursive call: the caller is on the
chain, so registering it again changes nothing and there is nothing to tell. -/
theorem alike_mark (target : NodeId) {caller : Label} (hmem : caller ∈ chain) :
    Alike entries chain chain (pure () : Explore σ Unit) (do
      let source ← register entries caller
      link ⟨source, target, true⟩) := by
  intro dropped marked htwins
  obtain ⟨id, hknown⟩ := Registry.exists_idOf?_iff.2 (htwins.known caller hmem)
  change EndsAlike _ _ _ (.ok () ⟨(marked.draft.register caller (entries.contains caller)).2.link
    ⟨(marked.draft.register caller (entries.contains caller)).1, target, true⟩,
    marked.session.tell (marked.draft.registry.notices caller)⟩)
  rw [htwins.tidy.register_known hknown, Registry.notices_of_eq_some hknown, Session.tell_nil]
  exact .ok (htwins.linkRecursive id target)

variable (resolver) (options : ExploreOptions) {hops : Nat}

/-- The turns of the two loops end alike if the visits that they make do. -/
theorem alike_turn {below : List Label} {method : Label}
    (hvisit : ∀ caller, Alike entries (method :: below) (method :: below)
      (visit resolver (options.under .drop) entries hops (method :: below) caller)
      (visit resolver (options.under .mark) entries hops (method :: below) caller))
    (target : NodeId) (caller : Label) :
    Alike entries (method :: below) (method :: below)
      (turn resolver (options.under .drop) entries hops below method target caller)
      (turn resolver (options.under .mark) entries hops below method target caller) := by
  by_cases hmem : caller ∈ method :: below
  · rw [turn_of_mem hmem, turn_of_mem hmem]
    exact (alike_tell _).bind fun _ => alike_mark target hmem
  · rw [turn_of_not_mem hmem, turn_of_not_mem hmem]
    refine ((alike_register caller).mono (List.subset_cons_self _ _)).bind fun source => ?_
    exact (alike_link source target).bind fun _ => hvisit caller

/-- **Following one chain under the two policies.** -/
theorem alike_visit (hops : Nat) (below : List Label) (method : Label) :
    Alike entries below below
      (visit resolver (options.under .drop) entries hops below method)
      (visit resolver (options.under .mark) entries hops below method) := by
  induction hops generalizing below method with
  | zero =>
      refine alike_check.bind fun _ => ?_
      refine ((alike_register method).mono (List.subset_cons_self _ _)).bind fun _ => ?_
      exact alike_pure _
  | succ hops ih =>
      rw [visit_succ, visit_succ]
      refine alike_check.bind fun _ => (alike_register method).bind fun target => ?_
      refine (alike_callersInScope _ method below).bind fun callers => ?_
      refine (alike_tell _).bind fun _ => ?_
      exact (alike_forM fun caller => alike_turn resolver options (ih _) target caller).mono
        (List.subset_cons_self _ _)

theorem alike_visitEntries : Alike entries [] []
    (visitEntries resolver (options.under .drop) entries)
    (visitEntries resolver (options.under .mark) entries) :=
  alike_forM fun entry => alike_visit resolver options _ [] entry

end Explore

/-- **What the cycle policy changes.**  Whatever the resolver does, exploring under
dropping and under marking asks the same questions, tells the same events and
leaves the resolver in the same state, and a stop is asked for under both or
under none.  Either both end with the same error, or both have a draft at the
end.  Then the methods are the same, with their order, their nodes and the
palette, and the calls under dropping are those under marking that are not
recursive. -/
theorem explore_cycle_policies (resolver : Resolver σ) (options : ExploreOptions)
    (entries : List Label) (session : Session σ) :
    let dropped := explore resolver (options.under .drop) entries session
    let marked := explore resolver (options.under .mark) entries session
    dropped.2 = marked.2 ∧
      ((∃ error, dropped.1 = .error error ∧ marked.1 = .error error) ∨
        ∃ draft annotated : Draft, dropped.1 = .ok draft ∧ marked.1 = .ok annotated ∧
          draft.registry = annotated.registry ∧
          ∀ call, call ∈ draft.calls.calls ↔
            call ∈ annotated.calls.calls ∧ call.recursive = false) := by
  intro dropped marked
  have hends := Explore.alike_visitEntries resolver options _ _
    (Twins.fresh entries options.colors session)
  have hdropped : dropped = Explore.concluded _ := explore_eq_concluded _ _ _ _
  have hmarked : marked = Explore.concluded _ := explore_eq_concluded _ _ _ _
  rw [hdropped, hmarked]
  change EndsAlike entries [] ((Explore.visitEntries resolver (options.under .drop) entries).run
    ⟨.fresh (options.under .drop).colors, session⟩) ((Explore.visitEntries resolver
      (options.under .mark) entries).run ⟨.fresh (options.under .mark).colors, session⟩) at hends
  generalize (Explore.visitEntries resolver (options.under .drop) entries).run _ = drop at hends ⊢
  generalize (Explore.visitEntries resolver (options.under .mark) entries).run _ = mark at hends ⊢
  cases hends with
  | error hsession => exact ⟨hsession, .inl ⟨_, rfl, rfl⟩⟩
  | ok htwins =>
      refine ⟨htwins.session, .inr ⟨_, _, rfl, rfl, htwins.registry, fun call => ?_⟩⟩
      obtain ⟨linked, hmarkCalls, hdropCalls⟩ := htwins.calls
      rw [hmarkCalls, hdropCalls, CallSet.mem_ofList, CallSet.mem_ofList,
        CallSet.settled_filter_plain]

end CallerGraph
