import CallerGraph.Proofs.ExploredGraph
import CallerGraph.Proofs.Portrait

/-!
# Graphs do not depend on the order of callers

What an exploration finds was said in terms of all chains from the entries.
Chains know nothing of the order in which callers are listed, nor of the
order of the entries or of repetitions among either.  So two explorations
that differ in nothing else end with drafts of the same portrait, and hence
with finished graphs of the same portrait.
-/

namespace CallerGraph

namespace CallTable

/-- Do the two tables list the same callers, in whatever order and however
often, and tell the same origins? -/
structure Reorders (table other : CallTable) : Prop where
  callers : ∀ method caller, caller ∈ table.callers method ↔ caller ∈ other.callers method
  origin : ∀ label, table.origin label = other.origin label

variable {table other : CallTable} {options : ExploreOptions} {entries others : List Label}

/-- What is gathered goes by its labels. -/
theorem labelled_gathered (table : CallTable) (options : ExploreOptions) (entries : List Label) :
    (table.gathered options entries).parts.Labelled
      (table.gathered options entries).registry.idOf? :=
  Draft.labelled_parts (table.tidy_gathered options entries).orderly
    Draft.linked_meetAll_fresh Draft.nodup_ends_meetAll_fresh

/-- Whether a gathered draft holds a call can be said by its chains alone,
under either policy. -/
theorem hasCall_gathered_iff {caller method : Label} {recursive : Bool} :
    (table.gathered options entries).HasCall caller method recursive ↔
      table.Accepts options.scope caller method ∧
        if recursive then options.cycles = .mark ∧
          (∃ below, table.Expands options entries below method) ∧
          ∀ below, table.Expands options entries below method → caller ∈ method :: below
        else ∃ below, table.Expands options entries below method ∧ caller ∉ method :: below := by
  cases recursive with
  | false => exact hasCall_false_gathered
  | true =>
      cases hcycles : options.cycles with
      | drop => simp [not_hasCall_true_gathered hcycles]
      | mark => simp [hasCall_true_gathered hcycles]

/-- **The portrait of what is gathered does not depend on order.**  Colours
may come from anywhere. -/
theorem portrait_gathered_congr (hreorders : table.Reorders other)
    (hentries : ∀ label, label ∈ entries ↔ label ∈ others) (scope : Scope) (cycles : CyclePolicy)
    (maxDepth : Option Nat) (colors otherColors : ColorSource) :
    let draft := table.gathered ⟨scope, cycles, maxDepth, colors⟩ entries
    let redrawn := other.gathered ⟨scope, cycles, maxDepth, otherColors⟩ others
    draft.parts.portrait draft.registry.idOf? =
      redrawn.parts.portrait redrawn.registry.idOf? := by
  intro draft redrawn
  have haccepts : table.Accepts scope = other.Accepts scope :=
    accepts_congr scope hreorders.callers hreorders.origin
  have hchain : Chain (other.Accepts scope) entries = Chain (other.Accepts scope) others :=
    Chain.entries_congr hentries
  have hcontains : ∀ label, entries.contains label = others.contains label := by
    intro label
    rw [Bool.eq_iff_iff, List.contains_iff_mem, List.contains_iff_mem, hentries]
  apply Portrait.ext
  · funext label face
    apply propext
    have hlabels : label ∈ draft.registry.labels ↔ label ∈ redrawn.registry.labels := by
      rw [mem_labels_gathered, mem_labels_gathered, haccepts, hchain]
    rw [(table.tidy_gathered _ entries).node_portrait_iff,
      (other.tidy_gathered _ others).node_portrait_iff, hlabels, hcontains]
  · funext caller method recursive
    apply propext
    rw [Draft.call_portrait_iff, Draft.call_portrait_iff, hasCall_gathered_iff,
      hasCall_gathered_iff]
    simp only [Expands, haccepts, hchain]

end CallTable

section Explore

variable {σ τ : Type} {resolver : Resolver σ} {redrawer : Resolver τ} {table other : CallTable}
  {entries others : List Label}

/-- **The finished graph does not depend on order.**  Two explorations of
sources that list the same callers in any order and with any repetitions,
from the same entries in any order and with any repetitions, come to their
ends with drafts whose finished graphs, pruned or not, show the same nodes
and the same calls under the labels of the methods.  In both graphs each node
has exactly one label, no two nodes share one, and no pair of methods has two
calls, so identifiers, colours and order are all that can differ. -/
theorem explore_order_independent (hreads : resolver.Reads table)
    (hother : redrawer.Reads other) (hreorders : table.Reorders other)
    (hentries : ∀ label, label ∈ entries ↔ label ∈ others) (scope : Scope) (cycles : CyclePolicy)
    (maxDepth : Option Nat) (colors otherColors : ColorSource)
    {session : Session σ} (hquiet : session.cancelled = false)
    {otherSession : Session τ} (hotherQuiet : otherSession.cancelled = false) :
    ∃ draft redrawn : Draft,
      (explore resolver ⟨scope, cycles, maxDepth, colors⟩ entries session).1 = .ok draft ∧
      (explore redrawer ⟨scope, cycles, maxDepth, otherColors⟩ others otherSession).1 =
        .ok redrawn ∧
      ∀ pruned,
        (draft.toGraph pruned).portrait draft.registry.idOf? =
          (redrawn.toGraph pruned).portrait redrawn.registry.idOf? ∧
        (draft.toGraph pruned).Labelled draft.registry.idOf? ∧
        (redrawn.toGraph pruned).Labelled redrawn.registry.idOf? := by
  have hlabelled := table.labelled_gathered ⟨scope, cycles, maxDepth, colors⟩ entries
  have hotherLabelled := other.labelled_gathered ⟨scope, cycles, maxDepth, otherColors⟩ others
  have hsame := CallTable.portrait_gathered_congr hreorders hentries scope cycles maxDepth colors
    otherColors
  refine ⟨_, _, (explore_of_reads hreads _ entries hquiet).1,
    (explore_of_reads hother _ others hotherQuiet).1, ?_⟩
  intro pruned
  exact ⟨Draft.portrait_toGraph_congr hlabelled hotherLabelled hsame pruned,
    Draft.labelled_toGraph hlabelled pruned, Draft.labelled_toGraph hotherLabelled pruned⟩

/-- The callers of `crossedMap` in another order, one of them twice. -/
def recrossedMap : CallMap where
  callers := [(⟨"a"⟩, [⟨"c"⟩, ⟨"b"⟩, ⟨"c"⟩, ⟨"a"⟩]), (⟨"b"⟩, [⟨"c"⟩]), (⟨"c"⟩, [⟨"b"⟩])]
  origins := []

/-- Entries and callers the other way round, and the pruned graphs show the
same all the same. -/
theorem explore_order_independent_recrossedMap :
    (crossedMap.resolver fun _ => false).Reads crossedMap.table ∧
      (recrossedMap.resolver fun _ => false).Reads recrossedMap.table ∧
      crossedMap.table.Reorders recrossedMap.table ∧
      (∀ label, label ∈ [(⟨"a"⟩ : Label), ⟨"b"⟩] ↔ label ∈ [(⟨"b"⟩ : Label), ⟨"a"⟩, ⟨"b"⟩]) ∧
      (Session.start 0 false).cancelled = false ∧
      ∃ draft redrawn : Draft,
        (explore (crossedMap.resolver fun _ => false) crossedOptions [⟨"a"⟩, ⟨"b"⟩]
          (Session.start 0 false)).1 = .ok draft ∧
        (explore (recrossedMap.resolver fun _ => false) crossedOptions [⟨"b"⟩, ⟨"a"⟩, ⟨"b"⟩]
          (Session.start 0 false)).1 = .ok redrawn ∧
        (draft.toGraph true).portrait draft.registry.idOf? =
          (redrawn.toGraph true).portrait redrawn.registry.idOf? := by
  have hreads : (crossedMap.resolver fun _ => false).Reads crossedMap.table :=
    crossedMap.reads_table fun _ => rfl
  have hother : (recrossedMap.resolver fun _ => false).Reads recrossedMap.table :=
    recrossedMap.reads_table fun _ => rfl
  have hreorders : crossedMap.table.Reorders recrossedMap.table := by
    refine ⟨fun method caller => ?_, fun _ => rfl⟩
    change caller ∈ crossedMap.callersOf method ↔ caller ∈ recrossedMap.callersOf method
    by_cases ha : method = ⟨"a"⟩
    · subst ha
      have hlist : crossedMap.callersOf ⟨"a"⟩ = [⟨"a"⟩, ⟨"b"⟩, ⟨"c"⟩] := by decide
      have hrelist : recrossedMap.callersOf ⟨"a"⟩ = [⟨"c"⟩, ⟨"b"⟩, ⟨"c"⟩, ⟨"a"⟩] := by decide
      rw [hlist, hrelist]
      grind
    · have hkey : (method == ⟨"a"⟩) = false := beq_false_of_ne ha
      have hsame : crossedMap.callersOf method = recrossedMap.callersOf method := by
        simp only [CallMap.callersOf, crossedMap, recrossedMap, List.lookup_cons, hkey]
      rw [hsame]
  have hentries : ∀ label,
      label ∈ [(⟨"a"⟩ : Label), ⟨"b"⟩] ↔ label ∈ [(⟨"b"⟩ : Label), ⟨"a"⟩, ⟨"b"⟩] := by
    grind
  have hquiet : (Session.start 0 false).cancelled = false := rfl
  obtain ⟨draft, redrawn, hrun, hrerun, hsame⟩ := explore_order_independent hreads hother
    hreorders hentries crossedOptions.scope crossedOptions.cycles crossedOptions.maxDepth
    crossedOptions.colors crossedOptions.colors hquiet hquiet
  exact ⟨hreads, hother, hreorders, hentries, hquiet, draft, redrawn, hrun, hrerun, (hsame true).1⟩

end Explore

end CallerGraph
