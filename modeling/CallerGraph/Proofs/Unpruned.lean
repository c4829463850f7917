import CallerGraph.Proofs.ExploredGraph
import CallerGraph.Proofs.Growth
import CallerGraph.Proofs.Pruning

/-!
# Finishing without pruning

Finishing leaves out a node whose identifier came before and a call that does
not join two nodes, and says nothing about it.  A draft that has grown from
nothing has neither, so that without pruning the graph shows all of it: the
nodes in their order and as they are, but for the roles, and the calls as they
are.

For a hierarchy this can be followed line by line.  What was registered and
linked up to some line is in the draft from then on, and so in the graph.
-/

namespace CallerGraph

namespace Graph

variable {graph : Graph} {draft earlier : Draft}

/-- The graph has the nodes of the draft, in their order and as they are but
for the roles, and the calls of the draft, in their order and as they are. -/
structure Shows (graph : Graph) (draft : Draft) : Prop where
  nodes : graph.nodes = draft.registry.nodes.map graph.placed
  calls : graph.calls = draft.calls.calls

theorem Shows.length_nodes (h : graph.Shows draft) : graph.nodes.length = draft.registry.size := by
  rw [h.nodes, List.length_map, Registry.nodes, List.length_map, Registry.size]

theorem Shows.length_calls (h : graph.Shows draft) : graph.calls.length = draft.calls.size := by
  rw [h.calls, CallSet.size]

/-- The node of a method that was met before is there, perhaps an entry by
now. -/
theorem Shows.exists_placed (h : graph.Shows draft) (hearlier : earlier.Sound)
    (hkeeps : earlier.Keeps draft) {node : Node} (hnode : node ∈ earlier.registry.nodes) :
    ∃ entry, graph.placed (node.escalate entry) ∈ graph.nodes := by
  obtain ⟨label, hfound⟩ := hearlier.orderly.exists_find? hnode
  obtain ⟨entry, hlater⟩ := hkeeps.find? hfound
  refine ⟨entry, ?_⟩
  rw [h.nodes]
  exact List.mem_map_of_mem (Registry.mem_nodes_of_find? hlater)

/-- Two methods that were linked before are linked. -/
theorem Shows.containsCall (h : graph.Shows draft) (hkeeps : earlier.Keeps draft) {call : Call}
    (hcall : call ∈ earlier.calls.calls) :
    graph.containsCall call.source call.target = true := by
  have hends := hkeeps.ends (List.mem_map_of_mem hcall)
  rw [← h.calls] at hends
  obtain ⟨kept, hkept, hpair⟩ := List.mem_map.1 hends
  obtain ⟨hsource, htarget⟩ := Prod.mk.inj hpair
  exact List.any_eq_true.2 ⟨kept, hkept, by simp [hsource, htarget]⟩

end Graph

/-- Finishing a sound draft without pruning leaves everything in its place. -/
theorem Draft.Sound.shows {draft : Draft} (h : draft.Sound) :
    (draft.toGraph false).Shows draft := by
  have hwhole : draft.toGraph false = draft.parts.classify := toGraph_of_labelled h.labelled false
  rw [hwhole]
  exact ⟨rfl, rfl⟩

namespace Hierarchy

/-- The draft of the first lines of a hierarchy. -/
def draftUpTo (options : HierarchyOptions) (text : String) (count : Nat) : Draft :=
  ((Reading.start options.colors).readLines options
    ((Text.splitLines text.toList).take count) 1).draft

/-- Reading goes on from the draft of the first lines. -/
theorem grows_draftUpTo (options : HierarchyOptions) (text : String) (count : Nat) :
    (Draft.fresh options.colors).Grows (draftUpTo options text count) ∧
      (draftUpTo options text count).Grows (read options text).draft := by
  obtain ⟨hfirst, hrooted⟩ := Reading.grows_readLines (Reading.rooted_start options.colors) options
    ((Text.splitLines text.toList).take count) 1
  refine ⟨hfirst, ?_⟩
  have hrest := (Reading.grows_readLines hrooted options
    ((Text.splitLines text.toList).drop count)
    (1 + ((Text.splitLines text.toList).take count).length)).1
  rwa [← Reading.readLines_append, List.take_append_drop] at hrest

end Hierarchy

/-- **Without pruning nothing is lost.**  When an exploration comes to its end,
whatever the resolver did, the unpruned graph has the nodes of its draft in
their order, with their identifiers, texts, colours and entry flags, and the
calls of its draft in their order and with their flags, so that there are as
many of them.  The same holds of a hierarchy, whatever its text, its width and
its cycle policy: every node that was registered when some number of lines had
been read is there, at most an entry by now, and so is a call for every two
methods that were linked by then. -/
theorem unpruned_graph_shows_draft :
    (∀ {σ : Type} (resolver : Resolver σ) (options : ExploreOptions) (entries : List Label)
        (session : Session σ) (draft : Draft),
      (explore resolver options entries session).1 = .ok draft →
        (draft.toGraph false).Shows draft ∧
          (draft.toGraph false).nodes.length = draft.registry.size ∧
          (draft.toGraph false).calls.length = draft.calls.size) ∧
      ∀ (options : HierarchyOptions) (text : String),
        let graph := Hierarchy.graph options text false
        let draft := (Hierarchy.read options text).draft
        graph.Shows draft ∧
          graph.nodes.length = draft.registry.size ∧
          graph.calls.length = draft.calls.size ∧
          ∀ count,
            let earlier := Hierarchy.draftUpTo options text count
            (∀ node ∈ earlier.registry.nodes,
              ∃ entry, graph.placed (node.escalate entry) ∈ graph.nodes) ∧
            ∀ call ∈ earlier.calls.calls,
              graph.containsCall call.source call.target = true := by
  constructor
  · intro σ resolver options entries session draft hrun
    have hshows := (Draft.sound_of_grows (grows_of_explore hrun)).shows
    exact ⟨hshows, hshows.length_nodes, hshows.length_calls⟩
  · intro options text graph draft
    have hshows : graph.Shows draft :=
      (Draft.sound_of_grows (Hierarchy.grows_read options text)).shows
    refine ⟨hshows, hshows.length_nodes, hshows.length_calls, fun count => ?_⟩
    obtain ⟨hfirst, hrest⟩ := Hierarchy.grows_draftUpTo options text count
    exact ⟨fun node => hshows.exists_placed (Draft.sound_of_grows hfirst) hrest.keeps,
      fun call => hshows.containsCall hrest.keeps⟩

/-- An exploration with cycles, and a hierarchy of two lines after its first
one. -/
theorem unpruned_graph_shows_draft_crossedMap :
    let options : HierarchyOptions := ⟨2, .mark, .ofWords (.scripted #[])⟩
    let graph := Hierarchy.graph options "a\n  b" false
    (∃ draft, (explore (crossedMap.resolver fun _ => false) crossedOptions [⟨"a"⟩]
        (Session.start 0 false)).1 = .ok draft ∧ (draft.toGraph false).Shows draft) ∧
      ∃ node ∈ (Hierarchy.draftUpTo options "a\n  b" 1).registry.nodes,
        node.id = ⟨"node1"⟩ ∧ ∃ entry, graph.placed (node.escalate entry) ∈ graph.nodes := by
  intro options graph
  obtain ⟨hexplored, hread⟩ := unpruned_graph_shows_draft
  have hreads : (crossedMap.resolver fun _ => false).Reads crossedMap.table :=
    crossedMap.reads_table fun _ => rfl
  have hquiet : (Session.start 0 false).cancelled = false := rfl
  have hrun := (explore_of_reads hreads crossedOptions [⟨"a"⟩] hquiet).1
  have hnode : ∃ node ∈ (Hierarchy.draftUpTo options "a\n  b" 1).registry.nodes,
      node.id = ⟨"node1"⟩ := by decide +kernel
  obtain ⟨node, hnode, hid⟩ := hnode
  obtain ⟨-, -, -, hlines⟩ := hread options "a\n  b"
  exact ⟨⟨_, hrun, (hexplored _ _ _ _ _ hrun).1⟩, node, hnode, hid, (hlines 1).1 node hnode⟩

end CallerGraph
