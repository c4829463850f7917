import CallerGraph.Proofs.ExploredGraph
import CallerGraph.Proofs.FinishedGraph
import CallerGraph.Proofs.Growth
import Mathlib.Logic.Relation

/-!
# Every method leads to an entry

From every node of a finished graph a walk along calls leads to an entry.  For
a draft this is kept by every step in its making: whoever is registered is an
entry, is known already, or is linked at once to a method that is known, from
which a walk goes on.

Pruning takes entries away, but only such as nobody calls.  A walk comes to
each of its later nodes by a call, so that a round can take away its first
node and no other, and with a node that stays the whole walk stays.
-/

namespace CallerGraph

open Relation (ReflTransGen)

/-- Is there a call between the two nodes? -/
def Graph.Joins (graph : Graph) (source target : NodeId) : Prop :=
  (source, target) ∈ graph.calls.map Call.ends

/-- From every node a walk along calls leads to an entry. -/
def Graph.Anchored (graph : Graph) : Prop :=
  ∀ node ∈ graph.nodes, ∃ entry ∈ graph.nodes, entry.isEntry = true ∧
    ReflTransGen graph.Joins node.id entry.id

namespace Draft

variable {draft later : Draft} {label other : Label} {id : NodeId}

/-- Does a walk along calls lead from the identifier to an entry? -/
def LeadsOn (draft : Draft) (id : NodeId) : Prop :=
  ∃ entry target, draft.registry.Marks entry ∧ draft.registry.idOf? entry = some target ∧
    ReflTransGen draft.parts.Joins id target

/-- A walk leads to an entry from every method. -/
def Anchored (draft : Draft) : Prop :=
  ∀ label id, draft.registry.idOf? label = some id → draft.LeadsOn id

theorem leadsOn_of_marks (hmarks : draft.registry.Marks label)
    (hid : draft.registry.idOf? label = some id) : draft.LeadsOn id :=
  ⟨label, id, hmarks, hid, .refl⟩

/-- Walks are not interrupted. -/
theorem Keeps.leadsOn (h : draft.Keeps later) (hleads : draft.LeadsOn id) : later.LeadsOn id := by
  obtain ⟨entry, target, hmarks, htarget, hwalk⟩ := hleads
  exact ⟨entry, target, h.marks hmarks, h.idOf? htarget,
    ReflTransGen.mono (fun _ _ => h.ends) _ _ hwalk⟩

theorem LeadsOn.head {source target : NodeId} (hjoins : draft.parts.Joins source target)
    (h : draft.LeadsOn target) : draft.LeadsOn source := by
  obtain ⟨entry, last, hmarks, hlast, hwalk⟩ := h
  exact ⟨entry, last, hmarks, hlast, hwalk.head hjoins⟩

theorem joins_link {call : Call} : (draft.link call).parts.Joins call.source call.target :=
  CallSet.mem_ends_add.2 (Or.inl rfl)

theorem anchored_fresh (source : ColorSource) : (fresh source).Anchored := by
  intro label id hid
  cases hid

/-- After a registration, other identifiers are those of before. -/
theorem idOf?_of_register {entry : Bool} (hne : other ≠ label)
    (hid : (draft.register label entry).2.registry.idOf? other = some id) :
    draft.registry.idOf? other = some id := by
  rwa [registry_register, Registry.idOf?, Registry.find?_register, if_neg hne] at hid

/-- Where only one label may have come anew it is enough to lead on from it. -/
theorem Anchored.extend (h : draft.Anchored) (hkeeps : draft.Keeps later)
    (hothers : ∀ other id, other ≠ label → later.registry.idOf? other = some id →
      draft.registry.idOf? other = some id)
    (hlabel : ∀ id, later.registry.idOf? label = some id → later.LeadsOn id) :
    later.Anchored := by
  intro other id hid
  by_cases heq : other = label
  · subst heq
    exact hlabel id hid
  · exact hkeeps.leadsOn (h other id (hothers other id heq hid))

/-- **One step.**  Whoever it registers leads to an entry, and all others
still do. -/
theorem Step.anchored (hstep : draft.Step later) (h : draft.Anchored) : later.Anchored := by
  have hkeeps := hstep.keeps
  cases hstep with
  | entry label =>
      refine h.extend hkeeps (fun _ _ => idOf?_of_register) fun id hid => ?_
      exact leadsOn_of_marks Registry.marks_register_self hid
  | @again known hknown entry =>
      refine h.extend hkeeps (fun _ _ => idOf?_of_register) fun id hid => ?_
      obtain ⟨before, hbefore⟩ := Registry.exists_idOf?_iff.2 hknown
      obtain rfl : before = id := Option.some.inj ((hkeeps.idOf? hbefore).symm.trans hid)
      exact hkeeps.leadsOn (h known before hbefore)
  | @caller caller entry recursive method target hmethod =>
      refine h.extend hkeeps (fun _ _ => idOf?_of_register) fun id hid => ?_
      have hsource : (draft.register caller entry).1 = id :=
        Option.some.inj (Registry.idOf?_register_self.symm.trans hid)
      rw [← hsource]
      exact (hkeeps.leadsOn (h method target hmethod)).head joins_link

/-- **What grows from nothing is anchored.** -/
theorem anchored_of_grows {source : ColorSource} (h : (fresh source).Grows draft) :
    draft.Anchored :=
  h.invariant Step.anchored (anchored_fresh source)

end Draft

namespace Graph

variable {graph : Graph} {source target : NodeId}

/-- Where a draft is anchored its graph is. -/
theorem anchored_parts {draft : Draft} (hsound : draft.Sound) (h : draft.Anchored) :
    draft.parts.Anchored := by
  intro node hnode
  obtain ⟨label, hfound⟩ := hsound.orderly.exists_find? hnode
  obtain ⟨entry, target, ⟨last, hlast, hentry⟩, htarget, hwalk⟩ :=
    h label _ (congrArg (Option.map Node.id) hfound)
  have hid : last.id = target := by
    rw [Registry.idOf?, hlast] at htarget
    exact Option.some.inj htarget
  subst hid
  exact ⟨last, Registry.mem_nodes_of_find? hlast, hentry, hwalk⟩

/-! ### Pruning -/

/-- Nobody takes away a node that is called. -/
theorem Joins.target_not_mem_uncalledEntries (h : graph.Joins source target) :
    target ∉ graph.uncalledEntries := by
  intro huncalled
  obtain ⟨call, hcall, hends⟩ := List.mem_map.1 h
  exact (mem_uncalledEntries_iff.1 huncalled).2 call hcall (Prod.mk.inj hends).2

theorem Joins.pruneRound (h : graph.Joins source target) (hsource : source ∉ graph.uncalledEntries) :
    graph.pruneRound.Joins source target := by
  have htarget := h.target_not_mem_uncalledEntries
  obtain ⟨call, hcall, hends⟩ := List.mem_map.1 h
  obtain ⟨rfl, rfl⟩ := Prod.mk.inj hends
  exact List.mem_map_of_mem (mem_calls_without.2 ⟨hcall, hsource, htarget⟩)

/-- A walk from a node that stays is still there after the round, and its last
node has stayed.  The induction is along the walk. -/
theorem walk_pruneRound (hwalk : ReflTransGen graph.Joins source target)
    (hsource : source ∉ graph.uncalledEntries) :
    ReflTransGen graph.pruneRound.Joins source target ∧ target ∉ graph.uncalledEntries := by
  induction hwalk with
  | refl => exact ⟨.refl, hsource⟩
  | tail _ hjoins ih =>
      obtain ⟨hbefore, hmiddle⟩ := ih
      exact ⟨hbefore.tail (hjoins.pruneRound hmiddle), hjoins.target_not_mem_uncalledEntries⟩

theorem Anchored.pruneRound (h : graph.Anchored) : graph.pruneRound.Anchored := by
  intro node hnode
  obtain ⟨hbefore, hstays⟩ := mem_nodes_without.1 hnode
  obtain ⟨entry, hentry, hmarked, hwalk⟩ := h node hbefore
  obtain ⟨hleft, hlast⟩ := walk_pruneRound hwalk hstays
  exact ⟨entry, mem_nodes_without.2 ⟨hentry, hlast⟩, hmarked, hleft⟩

/-- **Pruning cuts nothing off.** -/
theorem Anchored.prune (h : graph.Anchored) : graph.prune.Anchored :=
  prune_induction (fun _ h => h.pruneRound) h

theorem Anchored.classify (h : graph.Anchored) : graph.classify.Anchored := by
  intro node hnode
  obtain ⟨before, hbefore, rfl⟩ := List.mem_map.1 hnode
  obtain ⟨entry, hentry, hmarked, hwalk⟩ := h before hbefore
  exact ⟨graph.placed entry, List.mem_map_of_mem hentry, hmarked, hwalk⟩

/-! ### What follows -/

/-- A node that is no entry calls a node of the graph: its walk has a first
step. -/
theorem WellFormed.exists_callee (hwell : graph.WellFormed) (h : graph.Anchored) {node : Node}
    (hnode : node ∈ graph.nodes) (hplain : node.isEntry = false) :
    ∃ callee ∈ graph.nodes, graph.Joins node.id callee.id := by
  obtain ⟨entry, hentry, hmarked, hwalk⟩ := h node hnode
  rcases hwalk.cases_head with hid | ⟨next, hjoins, -⟩
  · rw [hwell.eq_of_id_eq hnode hentry hid, hmarked] at hplain
    cases hplain
  · obtain ⟨call, hcall, hends⟩ := List.mem_map.1 hjoins
    obtain ⟨-, rfl⟩ := Prod.mk.inj hends
    obtain ⟨callee, hcallee, hid⟩ := List.mem_map.1 (hwell.joins call hcall).2
    exact ⟨callee, hcallee, hid ▸ hjoins⟩

/-- A node that calls nothing is an entry. -/
theorem WellFormed.isEntry_of_outDegree (hwell : graph.WellFormed) (h : graph.Anchored)
    {node : Node} (hnode : node ∈ graph.nodes) (hnone : graph.outDegree node.id = 0) :
    node.isEntry = true := by
  by_contra hplain
  obtain ⟨callee, -, hjoins⟩ := hwell.exists_callee h hnode (Bool.not_eq_true _ ▸ hplain)
  obtain ⟨call, hcall, hends⟩ := List.mem_map.1 hjoins
  exact outDegree_eq_zero_iff.1 hnone call hcall (Prod.mk.inj hends).1

/-- Every node hangs on an entry: a walk along calls between nodes of the graph
leads to one, who calls nothing is one, and who is none calls somebody. -/
structure Grounded (graph : Graph) : Prop where
  wellFormed : graph.WellFormed
  anchored : graph.Anchored
  isEntry_of_root : ∀ node ∈ graph.nodes, node.role = .root → node.isEntry = true
  exists_callee : ∀ node ∈ graph.nodes, node.isEntry = false →
    ∃ callee ∈ graph.nodes, graph.Joins node.id callee.id

/-- Finishing grounds what has grown from nothing. -/
theorem grounded_of_grows {colors : ColorSource} {draft : Draft}
    (h : (Draft.fresh colors).Grows draft) (pruned : Bool) : (draft.toGraph pruned).Grounded := by
  have hsound := Draft.sound_of_grows h
  have hparts := anchored_parts hsound (Draft.anchored_of_grows h)
  have hwell : (draft.toGraph pruned).WellFormed := wellFormed_finalise _ _ pruned
  have hanchored : (draft.toGraph pruned).Anchored := by
    rw [Draft.toGraph_of_labelled hsound.labelled]
    cases pruned with
    | true => exact hparts.prune.classify
    | false => exact hparts.classify
  refine ⟨hwell, hanchored, ?_, fun node => hwell.exists_callee hanchored⟩
  intro node hnode hroot
  have hrole := (keepsFirst_finalise _ _ pruned).role_eq hnode
  exact hwell.isEntry_of_outDegree hanchored hnode
    (Role.root_eq_classify_iff.1 (hroot.symm.trans hrole))

end Graph

/-- **Every method leads to an entry.**  In the graph of an exploration that
comes to its end, whatever the resolver did, and in the graph of a hierarchy,
whatever its text, pruned or not, a walk along calls leads from every node to
an entry.  So every root is an entry, and a node that is no entry, pruning or
not, still has somebody to call. -/
theorem finished_graph_grounded :
    (∀ {σ : Type} (resolver : Resolver σ) (options : ExploreOptions) (entries : List Label)
        (session : Session σ) (draft : Draft),
      (explore resolver options entries session).1 = .ok draft →
        ∀ pruned, (draft.toGraph pruned).Grounded) ∧
      ∀ (options : HierarchyOptions) (text : String) (pruned : Bool),
        (Hierarchy.graph options text pruned).Grounded := by
  constructor
  · intro σ resolver options entries session draft hrun pruned
    exact Graph.grounded_of_grows (grows_of_explore hrun) pruned
  · intro options text pruned
    exact Graph.grounded_of_grows (Hierarchy.grows_read options text) pruned

/-- Methods that call each other hang on the entry, and so does a method that
stands under it in a text. -/
theorem finished_graph_grounded_crossedMap :
    let graph := Hierarchy.graph ⟨2, .mark, .ofWords (.scripted #[])⟩ "a\n  b" false
    (∃ draft, (explore (crossedMap.resolver fun _ => false) crossedOptions [⟨"a"⟩]
        (Session.start 0 false)).1 = .ok draft ∧ ∀ pruned, (draft.toGraph pruned).Grounded) ∧
      ∃ node ∈ graph.nodes, node.isEntry = false ∧
        ∃ callee ∈ graph.nodes, graph.Joins node.id callee.id := by
  intro graph
  obtain ⟨hexplored, hread⟩ := finished_graph_grounded
  have hreads : (crossedMap.resolver fun _ => false).Reads crossedMap.table :=
    crossedMap.reads_table fun _ => rfl
  have hquiet : (Session.start 0 false).cancelled = false := rfl
  have hrun := (explore_of_reads hreads crossedOptions [⟨"a"⟩] hquiet).1
  have hnode : ∃ node ∈ graph.nodes, node.isEntry = false := by decide +kernel
  obtain ⟨node, hnode, hplain⟩ := hnode
  exact ⟨⟨_, hrun, hexplored _ _ _ _ _ hrun⟩, node, hnode, hplain,
    (hread _ _ _).exists_callee node hnode hplain⟩

end CallerGraph
