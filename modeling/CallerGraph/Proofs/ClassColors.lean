import CallerGraph.Proofs.DistinctColors
import CallerGraph.Proofs.FinishedGraph
import CallerGraph.Proofs.Growth
import CallerGraph.Proofs.HexForm
import CallerGraph.Proofs.RegistryHistory

/-!
# Colours identify classes

A registry asks its palette for a colour when a label is new and when it is
asked for the colour of a class.  Both ways lead to the same table, so every
node has the colour that its class has in the palette, and every colour that a
registry has ever shown stays the colour of its class: `Registry.Colored` and
`Registry.Showed` are kept by every request.

Finishing a graph leaves classes and colours alone.  In the graph of a draft two
nodes therefore have one colour exactly when they have one class, whether the
draft was explored or read.
-/

namespace CallerGraph

namespace Registry

variable {registry : Registry} {label : Label} {entry : Bool} {className : String}

/-- Every node has the colour of its class, and different classes have
different colours. -/
structure Colored (registry : Registry) : Prop where
  nodes : ∀ node ∈ registry.nodes,
    registry.palette.lookup? node.className = some node.classColor
  distinct : registry.palette.coloring.Distinct

theorem colored_fresh (source : ColorSource) : (fresh source).Colored where
  nodes _ hnode := nomatch hnode
  distinct := Palette.distinct_fresh source

/-- The node of a new label has the colour that its class is given. -/
theorem gives_newNode (registry : Registry) (label : Label) (entry : Bool) :
    registry.palette.coloring.Gives (registry.newNode label entry).1.className
      (registry.newNode label entry).1.classColor (registry.newNode label entry).2.coloring :=
  registry.palette.gives_colorFor (LabelParts.ofLabel label.text).className

/-- Classes keep their colours when a label is registered. -/
theorem extends_register (registry : Registry) (label : Label) (entry : Bool) :
    registry.palette.coloring.Extends (registry.register label entry).2.palette.coloring := by
  cases hfound : registry.find? label with
  | some node =>
      rw [register_of_find?_eq_some hfound]
      exact .refl _
  | none =>
      rw [register_of_find?_eq_none hfound]
      exact (registry.gives_newNode label entry).extends

/-- **A registration keeps every node in the colour of its class.** -/
theorem Colored.register (h : registry.Colored) (label : Label) (entry : Bool) :
    (registry.register label entry).2.Colored := by
  cases hfound : registry.find? label with
  | some node =>
      rw [register_of_find?_eq_some hfound]
      refine ⟨fun node hnode => ?_, h.distinct⟩
      obtain ⟨known, hknown, rfl⟩ := List.mem_map.1 hnode
      obtain ⟨before, hbefore, rfl⟩ := List.mem_map.1 hknown
      have hcolor := h.nodes before.2 (List.mem_map_of_mem hbefore)
      by_cases hlabel : before.1 = label
      · rw [if_pos hlabel]
        exact hcolor
      · rw [if_neg hlabel]
        exact hcolor
  | none =>
      have hgives := registry.gives_newNode label entry
      rw [register_of_find?_eq_none hfound]
      refine ⟨fun node hnode => ?_, hgives.distinct h.distinct⟩
      rw [Registry.nodes, List.map_append, List.mem_append] at hnode
      rcases hnode with hold | hnew
      · exact hgives.extends.colorOf (h.nodes node hold)
      · obtain rfl := List.mem_singleton.1 hnew
        exact hgives.colorOf_self

/-- Asking for the colour of a class keeps the nodes in theirs. -/
theorem Colored.colorFor (h : registry.Colored) (className : String) :
    (registry.colorFor className).2.Colored := by
  have hgives := registry.palette.gives_colorFor className
  exact ⟨fun node hnode => hgives.extends.colorOf (h.nodes node hnode),
    hgives.distinct h.distinct⟩

/-- The node that a registration answers has the colour of its class. -/
theorem Colored.lookup?_register (h : registry.Colored) (label : Label) (entry : Bool) :
    (registry.register label entry).2.palette.lookup?
        (registry.register label entry).1.className =
      some (registry.register label entry).1.classColor := by
  have hfound : (registry.register label entry).2.find? label =
      some (registry.register label entry).1 := by
    rw [find?_register, if_pos rfl]
  exact (h.register label entry).nodes _ (mem_nodes_of_find? hfound)

/-- The palette is what the classes of the labels make of a fresh one. -/
def Drawn (source : ColorSource) (registry : Registry) : Prop :=
  registry.palette =
    (Palette.fresh source).after (registry.labels.map fun label =>
      (LabelParts.ofLabel label.text).className)

/-- **A registration asks for the class of a new label** and for no other. -/
theorem Drawn.register {source : ColorSource} (h : registry.Drawn source) (label : Label)
    (entry : Bool) : (registry.register label entry).2.Drawn source := by
  unfold Drawn at h ⊢
  cases hfound : registry.find? label with
  | some node =>
      rw [register_of_find?_eq_some hfound, labels_escalate]
      exact h
  | none =>
      rw [labels_register, if_neg (find?_eq_none_iff.1 hfound), List.map_append, Palette.after_append,
        ← h, register_of_find?_eq_none hfound]
      rfl

/-- The registry with more patience. -/
def patient (more : Nat) (registry : Registry) : Registry :=
  { registry with palette := registry.palette.patient more }

/-- A registration that does without patience is the same with it. -/
theorem register_patient
    (hquiet : (registry.register label entry).2.palette.stalled = false) (more : Nat) :
    (registry.patient more).register label entry =
      ((registry.register label entry).1, (registry.register label entry).2.patient more) := by
  cases hfound : registry.find? label with
  | some node =>
      have hpatient : (registry.patient more).find? label = some node := hfound
      rw [register_of_find?_eq_some hfound, register_of_find?_eq_some hpatient]
      rfl
  | none =>
      have hpatient : (registry.patient more).find? label = none := hfound
      rw [register_of_find?_eq_none hfound] at hquiet
      have hcolor := Palette.colorFor_patient hquiet more
      have hnode : (registry.patient more).newNode label entry =
          ((registry.newNode label entry).1, (registry.newNode label entry).2.patient more) := by
        unfold newNode
        change (Node.ofParts _ _ ((registry.palette.patient more).colorFor _).1 _,
          ((registry.palette.patient more).colorFor _).2) = _
        rw [hcolor]
        rfl
      rw [register_of_find?_eq_none hfound, register_of_find?_eq_none hpatient, hnode]
      rfl

/-- The class and the colour that an answer to a request shows. -/
def shown? : RegistryRequest × RegistryAnswer → Option (String × String)
  | (_, .node (some node)) => some (node.className, node.classColor)
  | (.colorFor className, .color color) => some (className, color)
  | _ => none

/-- The classes that the answers of a history show, with their colours. -/
def shown (history : RegistryHistory Registry) (requests : List RegistryRequest) :
    List (String × String) :=
  (requests.zip history.answers).filterMap shown?

/-- What was shown is still so. -/
structure Showed (history : RegistryHistory Registry) (requests : List RegistryRequest) :
    Prop where
  length : history.answers.length = requests.length
  colored : history.registry.Colored
  lookup? : ∀ given ∈ shown history requests,
    history.registry.palette.lookup? given.1 = some given.2

variable {history : RegistryHistory Registry} {requests : List RegistryRequest}

/-- A request is answered truly, and classes keep their colours meanwhile. -/
theorem Showed.answered (h : Showed history requests) {request : RegistryRequest}
    {answer : RegistryAnswer} {events : List Event} {after : Registry}
    (hcolored : after.Colored)
    (hextends : history.registry.palette.coloring.Extends after.palette.coloring)
    (htrue : ∀ given, shown? (request, answer) = some given →
      after.palette.lookup? given.1 = some given.2) :
    Showed (history.answered answer events after) (requests ++ [request]) where
  length := by
    rw [RegistryHistory.answered, List.length_append, List.length_append, h.length,
      List.length_singleton, List.length_singleton]
  colored := hcolored
  lookup? given hgiven := by
    rw [shown, RegistryHistory.answered, List.zip_append h.length.symm, List.filterMap_append,
      List.mem_append] at hgiven
    rcases hgiven with hold | hnew
    · exact hextends.colorOf (h.lookup? given hold)
    · obtain ⟨pair, hpair, hshown⟩ := List.mem_filterMap.1 hnew
      obtain rfl := List.mem_singleton.1 hpair
      exact htrue given hshown

/-- **Every request keeps what was shown.** -/
theorem Showed.ask (h : Showed history requests) (request : RegistryRequest) :
    Showed (history.ask actions request) (requests ++ [request]) := by
  have hcolored := h.colored
  cases request with
  | register label entry =>
      refine h.answered (hcolored.register label entry) (extends_register _ label entry) ?_
      rintro given ⟨⟩
      exact hcolored.lookup?_register label entry
  | idOf label =>
      refine h.answered hcolored (.refl _) ?_
      rintro given ⟨⟩
  | node id =>
      refine h.answered hcolored (.refl _) fun given hshown => ?_
      change shown? (.node id, .node (history.registry.node? id)) = some given at hshown
      cases hfound : history.registry.node? id with
      | none =>
          rw [hfound] at hshown
          cases hshown
      | some node =>
          rw [hfound] at hshown
          cases hshown
          exact hcolored.nodes node (List.mem_of_find?_eq_some hfound)
  | colorFor className =>
      have hgives := history.registry.palette.gives_colorFor className
      refine h.answered (hcolored.colorFor className) hgives.extends ?_
      rintro given ⟨⟩
      exact hgives.colorOf_self

theorem showed_of (source : ColorSource) (requests : List RegistryRequest) :
    Showed (.of actions (.fresh source) requests) requests := by
  induction requests using List.reverseRecOn with
  | nil => exact ⟨rfl, colored_fresh source, fun given hgiven => nomatch hgiven⟩
  | append_singleton requests request ih =>
      rw [RegistryHistory.of_concat]
      exact ih.ask request

end Registry

namespace RegistryHistory

variable {history : RegistryHistory Registry} {request : RegistryRequest}

/-- The history with more patience. -/
def patient (more : Nat) (history : RegistryHistory Registry) : RegistryHistory Registry :=
  { history with registry := history.registry.patient more }

/-- That a class had to share its colour stays on record. -/
theorem stalled_ask
    (hquiet : (history.ask Registry.actions request).registry.palette.stalled = false) :
    history.registry.palette.stalled = false := by
  cases request with
  | register label entry => exact (history.registry.extends_register label entry).stalled hquiet
  | idOf label => exact hquiet
  | node id => exact hquiet
  | colorFor className =>
      exact (history.registry.palette.gives_colorFor className).stalled hquiet

/-- A request that does without patience is answered the same with it. -/
theorem ask_patient
    (hquiet : (history.ask Registry.actions request).registry.palette.stalled = false)
    (more : Nat) :
    (history.patient more).ask Registry.actions request =
      (history.ask Registry.actions request).patient more := by
  cases request with
  | register label entry =>
      have hafter : (history.registry.register label entry).2.palette.stalled = false := hquiet
      have hnode := Registry.register_patient hafter more
      unfold ask
      simp only [Registry.actions, patient]
      rw [hnode]
      rfl
  | idOf label => rfl
  | node id => rfl
  | colorFor className =>
      have hafter : (history.registry.palette.colorFor className).2.stalled = false := hquiet
      have hcolor := Palette.colorFor_patient hafter more
      unfold ask
      simp only [Registry.actions, patient, Registry.colorFor, Registry.patient]
      rw [hcolor]
      rfl

/-- **Patience changes no answer** of a registry that does without. -/
theorem of_patient {source : ColorSource} {requests : List RegistryRequest}
    (hquiet : (of Registry.actions (.fresh source) requests).registry.palette.stalled = false)
    (more : Nat) :
    of Registry.actions (.fresh ⟨source.words, source.patience + more⟩) requests =
      (of Registry.actions (.fresh source) requests).patient more := by
  induction requests using List.reverseRecOn with
  | nil => rfl
  | append_singleton requests request ih =>
      rw [of_concat] at hquiet
      rw [of_concat, of_concat, ih (stalled_ask hquiet), ask_patient hquiet]

end RegistryHistory

namespace Draft

variable {draft later : Draft}

/-- In every step one label is registered. -/
theorem Step.exists_register (h : draft.Step later) :
    ∃ label entry, later.registry = (draft.registry.register label entry).2 := by
  cases h with
  | entry label => exact ⟨label, true, rfl⟩
  | again _ entry => exact ⟨_, entry, rfl⟩
  | caller caller entry recursive hmethod => exact ⟨caller, entry, rfl⟩

/-- What every registration keeps, the registry of a draft has as long as the
draft grows. -/
theorem Grows.registry {motive : Registry → Prop}
    (register : ∀ {registry : Registry} (label : Label) (entry : Bool),
      motive registry → motive (registry.register label entry).2)
    (h : draft.Grows later) (hstart : motive draft.registry) : motive later.registry := by
  refine h.invariant (motive := fun draft => motive draft.registry) (fun hstep hbefore => ?_) hstart
  obtain ⟨label, entry, hlater⟩ := hstep.exists_register
  rw [hlater]
  exact register label entry hbefore

/-- What grows from nothing has every node in the colour of its class. -/
theorem colored_of_grows {source : ColorSource} (h : (fresh source).Grows draft) :
    draft.registry.Colored :=
  h.registry (fun label entry hcolored => hcolored.register label entry)
    (Registry.colored_fresh source)

/-- Its palette is what the classes of its labels make of a fresh one. -/
theorem drawn_of_grows {source : ColorSource} (h : (fresh source).Grows draft) :
    draft.registry.Drawn source :=
  h.registry (fun label entry hdrawn => hdrawn.register label entry) rfl

/-- Finishing leaves classes and colours alone. -/
theorem exists_node_of_mem_toGraph {pruned : Bool} {node : Node}
    (hnode : node ∈ (draft.toGraph pruned).nodes) :
    ∃ known ∈ draft.registry.nodes,
      known.className = node.className ∧ known.classColor = node.classColor := by
  obtain ⟨kept, hsublist, -, hnodes⟩ :=
    Graph.keepsFirst_finalise draft.registry.nodes draft.calls.calls pruned
  rw [toGraph, hnodes] at hnode
  obtain ⟨known, hknown, rfl⟩ := List.mem_map.1 hnode
  exact ⟨known, hsublist.subset hknown, rfl, rfl⟩

/-- **In a finished graph colours identify classes.** -/
theorem classColor_eq_iff {source : ColorSource} (h : (fresh source).Grows draft)
    (hquiet : draft.registry.palette.stalled = false) {pruned : Bool} {node other : Node}
    (hnode : node ∈ (draft.toGraph pruned).nodes) (hother : other ∈ (draft.toGraph pruned).nodes) :
    node.classColor = other.classColor ↔ node.className = other.className := by
  have hcolored := colored_of_grows h
  obtain ⟨known, hknown, hclass, hcolor⟩ := exists_node_of_mem_toGraph hnode
  obtain ⟨that, hthat, hclass', hcolor'⟩ := exists_node_of_mem_toGraph hother
  rw [← hclass, ← hclass', ← hcolor, ← hcolor']
  exact hcolored.distinct.colors_eq_iff hquiet (hcolored.nodes known hknown)
    (hcolored.nodes that hthat)

end Draft

/-- **Colours identify classes.**  Whatever the words that colours are drawn from,
and as long as every search for a free colour comes to an end:

* of all the classes that the answers of a registry show, in a node or asked for
  by name, two have one colour exactly when they are the same, and the registry
  still has for each of them the colour that it showed, and nothing to give.
  Tables answer the same, and so does a registry with more patience;
* in the graph of an exploration, and in that of a hierarchy, pruned or not, two
  nodes have one colour exactly when they have one class;
* tables that are filled together do so too, in whatever order the colours in
  use are listed when a colour is chosen. -/
theorem colors_identify_classes :
    (∀ (source : ColorSource) (requests : List RegistryRequest),
      let history := RegistryHistory.of Registry.actions (.fresh source) requests
      history.registry.palette.stalled = false →
        (∀ given ∈ Registry.shown history requests,
          ∀ other ∈ Registry.shown history requests, given.2 = other.2 ↔ given.1 = other.1) ∧
        (∀ given ∈ Registry.shown history requests,
          history.registry.colorFor given.1 = (given.2, history.registry)) ∧
        (RegistryHistory.of TabledRegistry.actions (.fresh source) requests).answers =
          history.answers ∧
        ∀ more, RegistryHistory.of Registry.actions
            (.fresh ⟨source.words, source.patience + more⟩) requests = history.patient more) ∧
      (∀ {σ : Type} (resolver : Resolver σ) (options : ExploreOptions) (entries : List Label)
          (session : Session σ) (draft : Draft),
        (explore resolver options entries session).1 = .ok draft →
        draft.registry.palette.stalled = false → ∀ pruned,
          ∀ node ∈ (draft.toGraph pruned).nodes, ∀ other ∈ (draft.toGraph pruned).nodes,
            node.classColor = other.classColor ↔ node.className = other.className) ∧
      (∀ (options : HierarchyOptions) (text : String),
        (Hierarchy.read options text).draft.registry.palette.stalled = false → ∀ pruned,
          let graph := Hierarchy.graph options text pruned
          ∀ node ∈ graph.nodes, ∀ other ∈ graph.nodes,
            node.classColor = other.classColor ↔ node.className = other.className) ∧
      ∀ (listing : Std.HashSet String → List String) (source : ColorSource)
          (classNames : List String),
        let asked := (TabledPalette.fresh source).colorsFor listing classNames
        asked.2.stalled = false →
          asked.1.length = classNames.length ∧
            (∀ given ∈ classNames.zip asked.1, ∀ other ∈ classNames.zip asked.1,
              given.2 = other.2 ↔ given.1 = other.1) ∧
            ∀ given ∈ classNames.zip asked.1,
              asked.2.colorFor listing given.1 = (given.2, asked.2) := by
  refine ⟨?_, ?_, ?_, ?_⟩
  · intro source requests history hquiet
    have hshowed : Registry.Showed history requests := Registry.showed_of source requests
    refine ⟨fun given hgiven other hother => ?_, fun given hgiven => ?_,
      (RegistryHistory.mirrors_of source requests).answers, RegistryHistory.of_patient hquiet⟩
    · exact hshowed.colored.distinct.colors_eq_iff hquiet (hshowed.lookup? given hgiven)
        (hshowed.lookup? other hother)
    · unfold Registry.colorFor
      rw [Palette.colorFor_of_known (hshowed.lookup? given hgiven)]
  · intro σ resolver options entries session draft hrun hquiet pruned node hnode other hother
    exact Draft.classColor_eq_iff (grows_of_explore hrun) hquiet hnode hother
  · intro options text hquiet pruned graph node hnode other hother
    exact Draft.classColor_eq_iff (Hierarchy.grows_read options text) hquiet hnode hother
  · intro listing source classNames asked hquiet
    obtain ⟨hlength, hdistinct, -, hgiven⟩ := (TabledPalette.inStep_fresh source).colorsFor
      (TabledPalette.distinct_fresh source) listing classNames
    refine ⟨hlength, fun given hmem other hother => ?_, fun given hmem => ?_⟩
    · exact hdistinct.colors_eq_iff hquiet (hgiven given hmem) (hgiven other hother)
    · exact TabledPalette.colorFor_of_known (hgiven given hmem)

/-- Words for a first colour, and for another one from then on. -/
def twoColors : Words where
  word position := if position < wordsPerColor then 0 else 0xFFFFFFFF

theorem drawColor_twoColors (i : Nat) :
    drawColor twoColors (wordsPerColor + wordsPerColor * i) = drawColor twoColors wordsPerColor := by
  have hword : ∀ {position : Nat}, wordsPerColor ≤ position →
      twoColors.word position = 0xFFFFFFFF := fun h => if_neg (Nat.not_lt.2 h)
  simp (disch := omega) only [drawColor, Words.unit, hword]

/-- The second colour is not the first. -/
theorem toHex_twoColors_ne :
    (drawColor twoColors wordsPerColor).toHex ≠ (drawColor twoColors 0).toHex := by
  apply Hsb.toHex_ne_of_nodup <;> decide +kernel

/-- Two classes get the two colours. -/
theorem Palette.stalled_twoColors {className other : String} (hne : className ≠ other)
    (patience : Nat) : ((fresh ⟨twoColors, patience⟩).after [className, other]).stalled = false := by
  let first := (drawColor twoColors 0).toHex
  let middle : Palette := ⟨⟨twoColors, patience⟩, wordsPerColor, [(className, first)], false⟩
  have hfirst : (fresh ⟨twoColors, patience⟩).colorFor className = (first, middle) := by
    have hfree : (chooseColor twoColors 0 []).1 ∉ [] := List.not_mem_nil
    have hfound := search_of_not_mem hfree patience
    rw [colorFor_of_new rfl]
    simp only [next, fresh, inUse, List.map_nil, hfound]
    rfl
  have hfree : (chooseColor twoColors wordsPerColor middle.inUse).1 ∉ middle.inUse := by
    rw [chooseColor_of_forall drawColor_twoColors]
    exact fun hmem => toHex_twoColors_ne (List.mem_singleton.1 hmem)
  have hother : middle.lookup? other = none := by
    simp [middle, lookup?, hne]
  have hfound := search_of_not_mem hfree patience
  simp only [after, List.foldl_cons, List.foldl_nil, hfirst, colorFor_of_new hother]
  change (false || !(search _ _ _ _).isFree) = false
  rw [hfound]
  rfl

/-- Two classes get the two colours. -/
theorem TabledPalette.stalled_twoColors {className other : String} (hne : className ≠ other)
    (patience : Nat) :
    ((fresh ⟨twoColors, patience⟩).colorsFor Std.HashSet.toList [className, other]).2.stalled =
      false := by
  let first := (drawColor twoColors 0).toHex
  let middle : TabledPalette := ⟨⟨twoColors, patience⟩, wordsPerColor,
    (∅ : Std.HashMap _ _).insert className first, (∅ : Std.HashSet _).insert first, false⟩
  have hchosen : chooseColor twoColors 0 (∅ : Std.HashSet String).toList =
      (first, wordsPerColor) := by
    rw [Std.HashSet.toList_empty]
    rfl
  have hfirst : (fresh ⟨twoColors, patience⟩).colorFor Std.HashSet.toList className =
      (first, middle) := by
    have hfree : (chooseColor twoColors 0 (∅ : Std.HashSet String).toList).1 ∉
        (∅ : Std.HashSet String) := Std.HashSet.not_mem_empty
    have hfound := search_of_not_mem hfree patience
    rw [hchosen] at hfound
    rw [colorFor_of_new Std.HashMap.getElem?_empty]
    simp only [next, fresh, hfound]
    rfl
  have hfree : (chooseColor twoColors wordsPerColor middle.used.toList).1 ∉ middle.used := by
    rw [chooseColor_of_forall drawColor_twoColors]
    simpa [middle, first] using toHex_twoColors_ne.symm
  have hother : middle.lookup? other = none := by
    simp [middle, lookup?, hne]
  have hfound := search_of_not_mem hfree patience
  simp only [colorsFor, hfirst, colorFor_of_new hother]
  change (false || !(search _ _ _ _ _).isFree) = false
  rw [hfound]
  rfl

/-- Methods of two classes, registered and asked for in turn. -/
def twoClassRequests : List RegistryRequest :=
  [.register ⟨"A.a() (p)"⟩ false, .colorFor "B", .register ⟨"B.b() (p)"⟩ true, .colorFor "A",
    .node ⟨"node2"⟩]

/-- A method of one class, called by one of another. -/
def twoClassMap : CallMap where
  callers := [(⟨"A.a() (p)"⟩, [⟨"B.b() (p)"⟩])]
  origins := []

/-- If colours identify classes, nodes of two classes have two colours. -/
theorem Graph.exists_classColor_ne {graph : Graph}
    (hcolors : ∀ node ∈ graph.nodes, ∀ other ∈ graph.nodes,
      node.classColor = other.classColor ↔ node.className = other.className)
    {first second : String} (hne : first ≠ second)
    (hfirst : ∃ node ∈ graph.nodes, node.className = first)
    (hsecond : ∃ node ∈ graph.nodes, node.className = second) :
    ∃ node ∈ graph.nodes, ∃ other ∈ graph.nodes, node.classColor ≠ other.classColor := by
  obtain ⟨node, hnode, rfl⟩ := hfirst
  obtain ⟨other, hother, rfl⟩ := hsecond
  exact ⟨node, hnode, other, hother, mt (hcolors node hnode other hother).1 hne⟩

/-- A hierarchy, a list of requests and a call map in which two classes get the
two colours. -/
theorem colors_identify_classes_twoColors :
    let source := ColorSource.ofWords twoColors
    let history := RegistryHistory.of Registry.actions (.fresh source) twoClassRequests
    let options : HierarchyOptions := ⟨2, .mark, source⟩
    let text := "A.a() (p)\n  B.b() (p)"
    let read := (Hierarchy.read options text).draft
    let asked := (TabledPalette.fresh source).colorsFor Std.HashSet.toList ["A", "B"]
    (history.registry.palette.stalled = false ∧
      ∃ given ∈ Registry.shown history twoClassRequests,
        ∃ other ∈ Registry.shown history twoClassRequests, given.2 ≠ other.2) ∧
      (∃ draft, (explore (twoClassMap.resolver fun _ => false) ⟨.all, .mark, none, source⟩
          [⟨"A.a() (p)"⟩] (Session.start 0 false)).1 = .ok draft ∧
        draft.registry.palette.stalled = false ∧
        ∃ node ∈ (draft.toGraph false).nodes, ∃ other ∈ (draft.toGraph false).nodes,
          node.classColor ≠ other.classColor) ∧
      (read.registry.palette.stalled = false ∧
        ∃ node ∈ (Hierarchy.graph options text false).nodes,
          ∃ other ∈ (Hierarchy.graph options text false).nodes,
            node.classColor ≠ other.classColor) ∧
      asked.2.stalled = false ∧
      ∀ given ∈ ["A", "B"].zip asked.1, ∀ other ∈ ["A", "B"].zip asked.1,
        given.2 = other.2 ↔ given.1 = other.1 := by
  intro source history options text read asked
  obtain ⟨hrequests, hexplored, hread, htabled⟩ := colors_identify_classes
  let palette := (Palette.fresh source).after ["A", "B"]
  have hquiet : palette.stalled = false := Palette.stalled_twoColors (by decide) _
  have hgrown : ∀ {draft : Draft}, (Draft.fresh source).Grows draft →
      draft.registry.labels = [⟨"A.a() (p)"⟩, ⟨"B.b() (p)"⟩] →
      draft.registry.palette.stalled = false := by
    intro draft hgrows hlabels
    rw [Draft.drawn_of_grows hgrows, hlabels]
    exact hquiet
  refine ⟨?_, ?_, ?_, ?_⟩
  · have hpalette : history.registry.palette = palette := by rfl
    have hstalled : history.registry.palette.stalled = false := hpalette ▸ hquiet
    have hgiven : ∃ given ∈ Registry.shown history twoClassRequests, given.1 = "A" := by
      decide +kernel
    have hother : ∃ other ∈ Registry.shown history twoClassRequests, other.1 = "B" := by
      decide +kernel
    obtain ⟨given, hgiven, hfirst⟩ := hgiven
    obtain ⟨other, hother, hsecond⟩ := hother
    have hcolors := (hrequests source twoClassRequests hstalled).1 given hgiven other hother
    rw [hfirst, hsecond] at hcolors
    exact ⟨hstalled, given, hgiven, other, hother, mt hcolors.1 (by decide)⟩
  · have hreads : (twoClassMap.resolver fun _ => false).Reads twoClassMap.table :=
      twoClassMap.reads_table fun _ => rfl
    let explored := twoClassMap.table.gathered ⟨.all, .mark, none, source⟩ [⟨"A.a() (p)"⟩]
    have hrun := (explore_of_reads hreads ⟨.all, .mark, none, source⟩ [⟨"A.a() (p)"⟩]
      (rfl : (Session.start 0 false).cancelled = false)).1
    have hstalled : explored.registry.palette.stalled = false :=
      hgrown (grows_of_explore hrun) (by decide +kernel)
    have hcolors := hexplored _ _ _ _ explored hrun hstalled false
    have hfirst : ∃ node ∈ (explored.toGraph false).nodes, node.className = "A" := by
      decide +kernel
    have hsecond : ∃ node ∈ (explored.toGraph false).nodes, node.className = "B" := by
      decide +kernel
    exact ⟨explored, hrun, hstalled,
      Graph.exists_classColor_ne hcolors (by decide) hfirst hsecond⟩
  · have hstalled : read.registry.palette.stalled = false :=
      hgrown (Hierarchy.grows_read options text) (by decide +kernel)
    have hcolors := hread options text hstalled false
    have hfirst : ∃ node ∈ (Hierarchy.graph options text false).nodes, node.className = "A" := by
      decide +kernel
    have hsecond : ∃ node ∈ (Hierarchy.graph options text false).nodes, node.className = "B" := by
      decide +kernel
    exact ⟨hstalled, Graph.exists_classColor_ne hcolors (by decide) hfirst hsecond⟩
  · have hstalled : asked.2.stalled = false := TabledPalette.stalled_twoColors (by decide) _
    exact ⟨hstalled, (htabled _ source _ hstalled).2.1⟩

end CallerGraph
