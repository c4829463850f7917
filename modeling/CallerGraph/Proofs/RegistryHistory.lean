import CallerGraph.Proofs.TablesInStep

/-!
# What a registry remembers

Whatever is asked of a registry, and in whatever order, what it has at the end
can be told from the requests: the labels that were registered, each once and
in the order in which they first came, and for each of them whether some
request made it an entry.  `Registry.Remembers` says so of one moment, and
every request keeps it.

Asking for an identifier, a node or a colour leaves no trace in this, and
neither does registering a label again, apart from the entry flag.  A registry
with tables goes the same way step by step.
-/

namespace CallerGraph

theorem RegistryHistory.of_concat {ρ : Type} (actions : RegistryActions ρ) (registry : ρ)
    (requests : List RegistryRequest) (request : RegistryRequest) :
    of actions registry (requests ++ [request]) =
      (of actions registry requests).ask actions request := by
  rw [of, List.foldl_append, List.foldl_cons, List.foldl_nil, of]

namespace Registry

variable {registry : Registry} {history : RegistryHistory Registry}
  {requests : List RegistryRequest} {label : Label} {id : NodeId}

/-- The labels that are registered, in order and with repetitions. -/
def passed (requests : List RegistryRequest) : List Label :=
  requests.filterMap RegistryRequest.label?

theorem mem_passed_iff :
    label ∈ passed requests ↔ ∃ entry, RegistryRequest.register label entry ∈ requests := by
  rw [passed, List.mem_filterMap]
  constructor
  · rintro ⟨request, hrequest, hlabel⟩
    cases request with
    | register other entry =>
        obtain rfl := Option.some.inj hlabel
        exact ⟨entry, hrequest⟩
    | _ => cases hlabel
  · rintro ⟨entry, hrequest⟩
    exact ⟨_, hrequest, rfl⟩

/-- Can the label not be read? -/
def isUnreadable (label : Label) : Bool :=
  (LabelParts.parse? label.text).isNone

/-- The warnings about labels that come one after the other. -/
def warnings (labels : List Label) : List Event :=
  (labels.eraseDups.filter isUnreadable).map .unreadableLabel

/-- Labels, entry flags and warnings are those of the requests. -/
structure Remembers (history : RegistryHistory Registry) (requests : List RegistryRequest) :
    Prop where
  orderly : history.registry.Orderly
  labels : history.registry.labels = (passed requests).eraseDups
  flagged : ∀ label node, history.registry.find? label = some node →
    (node.isEntry = true ↔ RegistryRequest.register label true ∈ requests)
  events : history.events = warnings (passed requests)

theorem remembers_nil (source : ColorSource) :
    Remembers (.of actions (.fresh source) []) [] where
  orderly := orderly_fresh source
  labels := rfl
  flagged label node hfound := by cases hfound
  events := rfl

/-- A new label warns when it cannot be read, and no other does. -/
theorem warnings_concat (h : registry.labels = (passed requests).eraseDups) (label : Label) :
    warnings (passed requests ++ [label]) =
      warnings (passed requests) ++ registry.notices label := by
  have hnew : (registry.find? label).isNone = true ↔ label ∉ passed requests := by
    rw [Option.isNone_iff_eq_none, find?_eq_none_iff, h, List.mem_eraseDups]
  rw [warnings, eraseDups_concat, notices]
  simp only [hnew]
  by_cases hold : label ∈ passed requests
  · simp [hold, warnings]
  · by_cases hreads : (LabelParts.parse? label.text).isNone = true
    · simp [hold, hreads, warnings, isUnreadable]
    · simp [hold, hreads, warnings, isUnreadable]

/-- A label is an entry when it was one before or is registered as one. -/
theorem isEntry_register (registry : Registry) (label : Label) (entry : Bool) :
    (registry.register label entry).1.isEntry =
      ((registry.find? label).any Node.isEntry || entry) := by
  cases hfound : registry.find? label with
  | some node => rw [register_of_find?_eq_some hfound, Node.isEntry_escalate, Option.any_some]
  | none =>
      rw [register_of_find?_eq_none hfound]
      rfl

theorem passed_concat (requests : List RegistryRequest) (request : RegistryRequest) :
    passed (requests ++ [request]) = passed requests ++ request.label?.toList := by
  rw [passed, List.filterMap_append, ← passed]
  cases request with
  | register label entry => rfl
  | _ => rfl

/-- The entry flags after a registration. -/
theorem Remembers.flagged_register (h : Remembers history requests) (label : Label)
    (entry : Bool) (other : Label) (node : Node)
    (hfound : (history.registry.register label entry).2.find? other = some node) :
    node.isEntry = true ↔
      RegistryRequest.register other true ∈ requests ++ [.register label entry] := by
  rw [find?_register] at hfound
  rw [List.mem_append, List.mem_singleton, RegistryRequest.register.injEq]
  by_cases hother : other = label
  · subst hother
    rw [if_pos rfl] at hfound
    rw [← Option.some.inj hfound, isEntry_register, Bool.or_eq_true, eq_comm (a := entry)]
    refine or_congr ?_ (by simp)
    cases hknown : history.registry.find? other with
    | some known => exact h.flagged other known hknown
    | none =>
        have hnew : other ∉ passed requests := by
          rwa [find?_eq_none_iff, h.labels, List.mem_eraseDups] at hknown
        simp only [Option.any_none, Bool.false_eq_true, false_iff]
        exact fun hmem => hnew (mem_passed_iff.2 ⟨true, hmem⟩)
  · rw [if_neg hother] at hfound
    rw [h.flagged other node hfound]
    simp [hother]

/-- A request that registers nothing leaves what is remembered alone, whatever
colour it takes. -/
theorem Remembers.idle (h : Remembers history requests) {request : RegistryRequest}
    (hidle : request.label? = none) (answer : RegistryAnswer) (palette : Palette) :
    Remembers (history.answered answer [] { history.registry with palette })
      (requests ++ [request]) := by
  have hpassed : passed (requests ++ [request]) = passed requests := by
    rw [passed_concat, hidle, Option.toList_none, List.append_nil]
  have hmem : ∀ label, RegistryRequest.register label true ∈ requests ++ [request] ↔
      RegistryRequest.register label true ∈ requests := by
    intro label
    rw [List.mem_append, List.mem_singleton, or_iff_left_iff_imp]
    rintro rfl
    cases hidle
  refine ⟨⟨h.orderly.labels_nodup, h.orderly.numbered, h.orderly.described⟩, ?_, ?_, ?_⟩
  · rw [hpassed]
    exact h.labels
  · intro label node hfound
    rw [hmem]
    exact h.flagged label node hfound
  · rw [hpassed, ← h.events]
    exact List.append_nil history.events

/-- **One request.**  Only a registration has something to add. -/
theorem Remembers.ask (h : Remembers history requests) (request : RegistryRequest) :
    Remembers (history.ask actions request) (requests ++ [request]) := by
  have hpassed := passed_concat requests request
  cases request with
  | register label entry =>
      simp only [RegistryRequest.label?, Option.toList_some] at hpassed
      refine ⟨h.orderly.register label entry, ?_, h.flagged_register label entry, ?_⟩
      · rw [hpassed]
        exact labels_register_of_eq h.labels label entry
      · rw [hpassed, warnings_concat h.labels, ← h.events]
        rfl
  | idOf label => exact h.idle rfl _ history.registry.palette
  | node id => exact h.idle rfl _ history.registry.palette
  | colorFor className => exact h.idle rfl _ _

/-- **Any number of requests.** -/
theorem remembers_of (source : ColorSource) (requests : List RegistryRequest) :
    Remembers (.of actions (.fresh source) requests) requests := by
  induction requests using List.reverseRecOn with
  | nil => exact remembers_nil source
  | append_singleton requests request ih =>
      rw [RegistryHistory.of_concat]
      exact ih.ask request

/-! ### What can be told from the requests -/

theorem Remembers.idOf?_eq_none_iff (h : Remembers history requests) :
    history.registry.idOf? label = none ↔ label ∉ passed requests := by
  rw [idOf?, Option.map_eq_none_iff, find?_eq_none_iff, h.labels, List.mem_eraseDups]

theorem Remembers.size_eq (h : Remembers history requests) :
    history.registry.size = (passed requests).eraseDups.length := by
  rw [← h.labels, Registry.labels, List.length_map, size]

/-- Under the identifier of a label stands its node. -/
theorem Remembers.exists_node (h : Remembers history requests)
    (hid : history.registry.idOf? label = some id) :
    ∃ node, history.registry.node? id = some node ∧ node.id = id ∧ node.Describes label ∧
      (node.isEntry = true ↔ RegistryRequest.register label true ∈ requests) := by
  obtain ⟨node, hfound, rfl⟩ := Option.map_eq_some_iff.1 hid
  exact ⟨node, h.orderly.node?_of_find? hfound, rfl, h.orderly.described label node hfound,
    h.flagged label node hfound⟩

/-- The nodes are those of the labels, in order. -/
theorem Remembers.nodes_eq (h : Remembers history requests) :
    history.registry.nodes.map some = (passed requests).eraseDups.map fun label =>
      (history.registry.idOf? label).bind history.registry.node? := by
  rw [← h.labels, Registry.labels, nodes, List.map_map, List.map_map]
  apply List.map_congr_left
  rintro ⟨label, node⟩ hmem
  have hfound := (find?_eq_some_iff h.orderly.labels_nodup).2 hmem
  simp only [Function.comp, idOf?_of_find? hfound, Option.bind_some,
    h.orderly.node?_of_find? hfound]

/-- **A label that comes again** has nothing to tell and takes nothing; at most
its node becomes an entry. -/
theorem Remembers.register_again (h : Remembers history requests) (hpassed : label ∈ passed requests)
    (entry : Bool) :
    let again := history.ask actions (.register label entry)
    again.events = history.events ∧
      again.registry.palette = history.registry.palette ∧
      again.registry.size = history.registry.size ∧
      (∀ other, again.registry.idOf? other = history.registry.idOf? other) ∧
      ∀ id, again.registry.node? id = (history.registry.node? id).map fun node =>
        if history.registry.idOf? label = some id then node.escalate entry else node := by
  intro again
  have hknown : label ∈ history.registry.labels := by rwa [h.labels, List.mem_eraseDups]
  obtain ⟨node, hfound⟩ := exists_find?_iff.2 hknown
  have hid := idOf?_of_find? hfound
  have hafter : again.registry = (history.registry.register label entry).2 := rfl
  have hanswer : history.registry.register label entry =
      (node.escalate entry, history.registry.escalate label entry) :=
    register_of_find?_eq_some hfound
  refine ⟨?_, ?_, ?_, fun other => ?_, fun id => ?_⟩
  · change history.events ++ history.registry.notices label = history.events
    rw [notices_of_eq_some hid, List.append_nil]
  · rw [hafter, hanswer, Registry.escalate]
  · rw [hafter, hanswer, Registry.escalate, size, List.length_map, size]
  · rw [hafter, idOf?_register, hanswer, Node.id_escalate]
    by_cases heq : label = other
    · rw [if_pos heq, ← heq, hid]
    · rw [if_neg heq]
  · rw [hafter, h.orderly.node?_register, hanswer, Node.id_escalate, hid]
    by_cases heq : node.id = id
    · subst heq
      rw [if_pos rfl, h.orderly.node?_of_find? hfound, Option.map_some, if_pos rfl]
    · simp [heq]

end Registry

namespace RegistryHistory

/-- A registry with tables, and one without, that have answered and told the
same and stand at the same point. -/
structure Mirrors (tabled : RegistryHistory TabledRegistry) (plain : RegistryHistory Registry) :
    Prop where
  registry : tabled.registry.Mirrors plain.registry
  answers : tabled.answers = plain.answers
  events : tabled.events = plain.events

variable {tabled : RegistryHistory TabledRegistry} {plain : RegistryHistory Registry}

theorem Mirrors.answered (h : tabled.Mirrors plain) {after : TabledRegistry} {later : Registry}
    (hafter : after.Mirrors later) {answer other : RegistryAnswer} (hanswer : answer = other)
    {events more : List Event} (hevents : events = more) :
    (tabled.answered answer events after).Mirrors (plain.answered other more later) where
  registry := hafter
  answers := by rw [RegistryHistory.answered, RegistryHistory.answered, h.answers, hanswer]
  events := by rw [RegistryHistory.answered, RegistryHistory.answered, h.events, hevents]

/-- **One request keeps the two in step.** -/
theorem Mirrors.ask (h : tabled.Mirrors plain) (horderly : plain.registry.Orderly)
    (request : RegistryRequest) :
    (tabled.ask TabledRegistry.actions request).Mirrors (plain.ask Registry.actions request) := by
  cases request with
  | register label entry =>
      obtain ⟨hnode, hafter⟩ := h.registry.register horderly label entry
      exact h.answered hafter (congrArg (fun node => .node (some node)) hnode)
        (h.registry.notices horderly label)
  | idOf label => exact h.answered h.registry (congrArg .id (h.registry.idOf? label)) rfl
  | node id => exact h.answered h.registry (congrArg .node (h.registry.node? id)) rfl
  | colorFor className =>
      obtain ⟨hcolor, hafter⟩ := h.registry.colorFor className
      exact h.answered hafter (congrArg .color hcolor) rfl

/-- **Tables stay in step whatever is asked.** -/
theorem mirrors_of (source : ColorSource) (requests : List RegistryRequest) :
    (of TabledRegistry.actions (.fresh source) requests).Mirrors
      (of Registry.actions (.fresh source) requests) := by
  induction requests using List.reverseRecOn with
  | nil => exact ⟨TabledRegistry.mirrors_fresh source, rfl, rfl⟩
  | append_singleton requests request ih =>
      rw [of_concat, of_concat]
      exact ih.ask (Registry.remembers_of source requests).orderly request

end RegistryHistory

/-- **What a registry remembers.**  Whatever was asked of it, in whatever order:

* a label has the number `k` exactly when it is the `k`-th different one that
  was registered, and none when it was not registered; different labels have
  different identifiers, and there are as many numbers as different labels;
* under the identifier of a label stands a node with the parts of the label, or
  those of a placeholder, which is an entry when some request registered the
  label as one;
* registering a label again has nothing to tell, takes no colour and gives no
  identifier; it changes no node but its own, and that one only by making it an
  entry;
* there is one warning for each different label that cannot be read, in order;
* the nodes at the end are those of the labels, numbered from 1, in order.

A registry with tables answers and tells the same all along, has the same under
every label and every identifier, and ends with the same nodes. -/
theorem registry_remembers_requests (source : ColorSource) (requests : List RegistryRequest) :
    let history := RegistryHistory.of Registry.actions (.fresh source) requests
    let registry := history.registry
    let tabled := RegistryHistory.of TabledRegistry.actions (.fresh source) requests
    let passed := Registry.passed requests
    let distinct := passed.eraseDups
    (∀ label position, registry.idOf? label = some (.ofOrdinal (position + 1)) ↔
        distinct[position]? = some label) ∧
      (∀ label, registry.idOf? label = none ↔ label ∉ passed) ∧
      (∀ label other id, registry.idOf? label = some id → registry.idOf? other = some id →
        label = other) ∧
      registry.size = distinct.length ∧
      (∀ label id, registry.idOf? label = some id → ∃ node, registry.node? id = some node ∧
        node.id = id ∧ node.Describes label ∧
        (node.isEntry = true ↔ .register label true ∈ requests)) ∧
      (∀ label ∈ passed, ∀ entry,
        let again := history.ask Registry.actions (.register label entry)
        again.events = history.events ∧
          again.registry.palette = registry.palette ∧
          again.registry.size = registry.size ∧
          (∀ other, again.registry.idOf? other = registry.idOf? other) ∧
          ∀ id, again.registry.node? id = (registry.node? id).map fun node =>
            if registry.idOf? label = some id then node.escalate entry else node) ∧
      history.events = (distinct.filter fun label =>
        (LabelParts.parse? label.text).isNone).map .unreadableLabel ∧
      registry.nodes.map Node.id =
        (List.range distinct.length).map (fun position => .ofOrdinal (position + 1)) ∧
      registry.nodes.map some =
        distinct.map (fun label => (registry.idOf? label).bind registry.node?) ∧
      tabled.Mirrors history ∧
      tabled.registry.size = registry.size ∧
      tabled.registry.intoNodes = registry.nodes := by
  intro history registry tabled passed distinct
  have h : Registry.Remembers history requests := Registry.remembers_of source requests
  have hmirrors : tabled.Mirrors history := RegistryHistory.mirrors_of source requests
  refine ⟨fun label position => ?_, fun label => h.idOf?_eq_none_iff,
    fun label other id => h.orderly.idOf?_injective, h.size_eq, fun label id => h.exists_node,
    fun label hpassed => h.register_again hpassed, h.events, ?_, h.nodes_eq, hmirrors,
    hmirrors.registry.size_eq, hmirrors.registry.intoNodes h.orderly⟩
  · rw [h.orderly.idOf?_eq_some_iff, h.labels]
  · rw [h.orderly.numbered, h.size_eq]

/-- Two labels, one of them registered twice and the second time as an entry,
with other requests between. -/
def mixedRequests : List RegistryRequest :=
  [.register ⟨"a"⟩ false, .colorFor "A", .register ⟨"b"⟩ true, .node ⟨"node1"⟩,
    .register ⟨"a"⟩ true, .idOf ⟨"c"⟩]

theorem registry_remembers_mixedRequests :
    let history := RegistryHistory.of Registry.actions (.fresh (.ofWords (.scripted #[])))
      mixedRequests
    ⟨"a"⟩ ∈ Registry.passed mixedRequests ∧
      history.registry.idOf? ⟨"a"⟩ = some ⟨"node1"⟩ ∧
      history.registry.idOf? ⟨"c"⟩ = none ∧
      (∃ node, history.registry.node? ⟨"node1"⟩ = some node ∧ node.isEntry = true) ∧
      (history.ask Registry.actions (.register ⟨"a"⟩ false)).events = history.events := by
  intro history
  have hpassed : ⟨"a"⟩ ∈ Registry.passed mixedRequests := by decide
  obtain ⟨hnumbers, hnone, -, -, hnodes, hagain, -⟩ :=
    registry_remembers_requests (.ofWords (.scripted #[])) mixedRequests
  have hid : history.registry.idOf? ⟨"a"⟩ = some ⟨"node1"⟩ :=
    (hnumbers ⟨"a"⟩ 0).2 (by decide)
  obtain ⟨node, hnode, -, -, hentry⟩ := hnodes ⟨"a"⟩ ⟨"node1"⟩ hid
  exact ⟨hpassed, hid, (hnone ⟨"c"⟩).2 (by decide), ⟨node, hnode, hentry.2 (by decide)⟩,
    (hagain ⟨"a"⟩ hpassed false).1⟩

end CallerGraph
