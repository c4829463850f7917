import CallerGraph.Exploration.Scope
import CallerGraph.Graph.Draft
import CallerGraph.Proofs.CallCollection
import CallerGraph.Proofs.Registration

/-!
# What chains leave in a draft

Meeting a chain of one method registers it.  Meeting a longer one registers
its two newest methods, of which the older one is known by then, and links
them; the call is recursive when the newest method was on the chain before.

Whatever the chains and their order, the draft that they leave behind can be
told from the list: its labels are the methods that were registered, and its
calls are those of `callsMet`, added in order under identifiers that never
change.
-/

namespace CallerGraph

/-- Is the newest method of a chain on it twice? -/
def closesCycle : List Label → Bool
  | [] => false
  | label :: below => below.contains label

theorem closesCycle_eq_true_iff {label : Label} {below : List Label} :
    closesCycle (label :: below) = true ↔ label ∈ below :=
  List.contains_iff_mem

theorem closesCycle_eq_false_iff {label : Label} {below : List Label} :
    closesCycle (label :: below) = false ↔ label ∉ below := by
  rw [← Bool.not_eq_true, closesCycle_eq_true_iff]

/-- Which chains leave something in a draft: those that close no cycle, and
under marking all. -/
def CyclePolicy.keeps (cycles : CyclePolicy) (chain : List Label) : Bool :=
  cycles == .mark || !closesCycle chain

namespace CyclePolicy

variable {cycles : CyclePolicy} {chain : List Label} {caller : Label}

theorem keeps_of_mem (h : caller ∈ chain) : cycles.keeps (caller :: chain) = (cycles == .mark) := by
  simp [keeps, closesCycle_eq_true_iff.2 h]

theorem keeps_of_not_mem (h : caller ∉ chain) : cycles.keeps (caller :: chain) = true := by
  simp [keeps, closesCycle_eq_false_iff.2 h]

end CyclePolicy

/-- The identifier of a label that has one. -/
def Registry.idOf (registry : Registry) (label : Label) : NodeId :=
  (registry.idOf? label).getD default

theorem Registry.idOf_of_eq_some {registry : Registry} {label : Label} {id : NodeId}
    (h : registry.idOf? label = some id) : registry.idOf label = id := by
  rw [idOf, h, Option.getD_some]

namespace Draft

variable {draft : Draft} {entries : List Label}

@[simp] theorem registry_register (draft : Draft) (label : Label) (entry : Bool) :
    (draft.register label entry).2.registry = (draft.registry.register label entry).2 := rfl

@[simp] theorem registry_link (draft : Draft) (call : Call) :
    (draft.link call).registry = draft.registry := rfl

/-- The draft after a chain was met. -/
def meet (entries : List Label) (draft : Draft) : List Label → Draft
  | [] => draft
  | [entry] => (draft.register entry (entries.contains entry)).2
  | caller :: method :: below =>
      let (target, known) := draft.register method (entries.contains method)
      let (source, linked) := known.register caller (entries.contains caller)
      linked.link ⟨source, target, closesCycle (caller :: method :: below)⟩

/-- The draft after several chains were met. -/
def meetAll (entries : List Label) (draft : Draft) (chains : List (List Label)) : Draft :=
  chains.foldl (meet entries) draft

@[simp] theorem meetAll_nil (entries : List Label) (draft : Draft) :
    draft.meetAll entries [] = draft := rfl

@[simp] theorem meetAll_cons (entries : List Label) (draft : Draft) (chain : List Label)
    (chains : List (List Label)) :
    draft.meetAll entries (chain :: chains) = (draft.meet entries chain).meetAll entries chains :=
  rfl

theorem meetAll_append (entries : List Label) (draft : Draft) (chains others : List (List Label)) :
    draft.meetAll entries (chains ++ others) =
      (draft.meetAll entries chains).meetAll entries others :=
  List.foldl_append

/-- What registrations keep, chains keep. -/
theorem meetAll_induction {motive : Registry → Prop}
    (register : ∀ registry label, motive registry →
      motive (registry.register label (entries.contains label)).2)
    (chains : List (List Label)) (hstart : motive draft.registry) :
    motive (draft.meetAll entries chains).registry := by
  induction chains generalizing draft with
  | nil => exact hstart
  | cons chain chains ih =>
      rw [meetAll_cons]
      apply ih
      match chain with
      | [] => exact hstart
      | [entry] => exact register _ entry hstart
      | caller :: method :: below => exact register _ caller (register _ method hstart)

/-- The labels are in order, and the entries are marked as such. -/
structure Tidy (entries : List Label) (draft : Draft) : Prop where
  orderly : draft.registry.Orderly
  flagged : Registry.Flagged entries draft.registry

theorem tidy_fresh (entries : List Label) (source : ColorSource) :
    (fresh source).Tidy entries :=
  ⟨Registry.orderly_fresh source, Registry.flagged_fresh entries source⟩

theorem Tidy.register (h : draft.Tidy entries) (label : Label) :
    (draft.register label (entries.contains label)).2.Tidy entries :=
  ⟨h.orderly.register label _, h.flagged.register label⟩

theorem Tidy.meetAll (h : draft.Tidy entries) (chains : List (List Label)) :
    (draft.meetAll entries chains).Tidy entries := by
  have hboth : (draft.meetAll entries chains).registry.Orderly ∧
      Registry.Flagged entries (draft.meetAll entries chains).registry :=
    meetAll_induction
      (motive := fun registry => registry.Orderly ∧ Registry.Flagged entries registry)
      (fun _ label h => ⟨h.1.register label _, h.2.register label⟩) chains ⟨h.orderly, h.flagged⟩
  exact ⟨hboth.1, hboth.2⟩

theorem Tidy.meet (h : draft.Tidy entries) (chain : List Label) :
    (draft.meet entries chain).Tidy entries :=
  h.meetAll [chain]

/-- A known method can be registered again without any effect. -/
theorem Tidy.register_known (h : draft.Tidy entries) {label : Label} {id : NodeId}
    (hknown : draft.registry.idOf? label = some id) :
    draft.register label (entries.contains label) = (id, draft) := by
  obtain ⟨node, hnode, rfl⟩ := Option.map_eq_some_iff.1 hknown
  simp only [Draft.register, h.flagged.register_known h.orderly.labels_nodup hnode]

/-- Under a known method meeting a chain registers the caller and links it. -/
theorem Tidy.meet_known (h : draft.Tidy entries) {caller method : Label} {below : List Label}
    {target : NodeId} (hknown : draft.registry.idOf? method = some target) :
    draft.meet entries (caller :: method :: below) =
      (draft.register caller (entries.contains caller)).2.link
        ⟨(draft.register caller (entries.contains caller)).1, target,
          closesCycle (caller :: method :: below)⟩ := by
  simp only [Draft.meet, h.register_known hknown]

/-- Identifiers outlast the chains that are met. -/
theorem idOf?_meetAll {label : Label} {id : NodeId}
    (hknown : draft.registry.idOf? label = some id) (chains : List (List Label)) :
    (draft.meetAll entries chains).registry.idOf? label = some id :=
  meetAll_induction (motive := fun registry => registry.idOf? label = some id)
    (fun _ _ h => Registry.idOf?_register_of_eq_some h) chains hknown

/-- The methods that a chain has registered: its newest, and the one below. -/
theorem mem_labels_meet {chain : List Label} {label : Label} :
    label ∈ (draft.meet entries chain).registry.labels ↔
      label ∈ chain.take 2 ∨ label ∈ draft.registry.labels := by
  match chain with
  | [] => simp [meet]
  | [entry] => simp [meet, Registry.mem_labels_register]
  | caller :: method :: below => simp [meet, Registry.mem_labels_register, or_assoc]

theorem mem_labels_meetAll {chains : List (List Label)} {label : Label} :
    label ∈ (draft.meetAll entries chains).registry.labels ↔
      (∃ chain ∈ chains, label ∈ chain.take 2) ∨ label ∈ draft.registry.labels := by
  induction chains generalizing draft with
  | nil => simp
  | cons chain chains ih =>
      rw [meetAll_cons, ih, mem_labels_meet]
      rw [List.exists_mem_cons_iff, or_assoc]
      exact or_left_comm

/-- The calls of chains, between the identifiers of a registry. -/
def callsMet (registry : Registry) (chains : List (List Label)) : List Call :=
  chains.filterMap fun
    | caller :: method :: below =>
        some ⟨registry.idOf caller, registry.idOf method,
          closesCycle (caller :: method :: below)⟩
    | _ => none

/-- **The calls that chains leave behind.**  They are added one after the
other, between the identifiers that the methods have in the end. -/
theorem calls_meetAll (chains : List (List Label)) :
    (draft.meetAll entries chains).calls =
      draft.calls.addAll (callsMet (draft.meetAll entries chains).registry chains) := by
  induction chains generalizing draft with
  | nil => rfl
  | cons chain chains ih =>
      rw [meetAll_cons, ih]
      match chain with
      | [] => rfl
      | [entry] => rfl
      | caller :: method :: below =>
          let known := (draft.register method (entries.contains method)).2
          have hmethod : (draft.meet entries (caller :: method :: below)).registry.idOf? method =
              some (draft.register method (entries.contains method)).1 :=
            Registry.idOf?_register_of_eq_some Registry.idOf?_register_self
          have hcaller : (draft.meet entries (caller :: method :: below)).registry.idOf? caller =
              some (known.register caller (entries.contains caller)).1 :=
            Registry.idOf?_register_self
          simp only [callsMet, List.filterMap_cons,
            Registry.idOf_of_eq_some (idOf?_meetAll hmethod chains),
            Registry.idOf_of_eq_some (idOf?_meetAll hcaller chains)]
          rfl

theorem mem_callsMet {registry : Registry} {chains : List (List Label)} {call : Call} :
    call ∈ callsMet registry chains ↔
      ∃ caller method below, caller :: method :: below ∈ chains ∧
        call = ⟨registry.idOf caller, registry.idOf method,
          closesCycle (caller :: method :: below)⟩ := by
  simp only [callsMet, List.mem_filterMap]
  constructor
  · intro h
    obtain ⟨chain, hchain, hcall⟩ := h
    match chain with
    | [] => cases hcall
    | [entry] => cases hcall
    | caller :: method :: below =>
        exact ⟨caller, method, below, hchain, (Option.some.inj hcall).symm⟩
  · intro h
    obtain ⟨caller, method, below, hchain, rfl⟩ := h
    exact ⟨_, hchain, rfl⟩

/-- Does the draft hold a call between the two methods, recursive or not as
said? -/
def HasCall (draft : Draft) (caller method : Label) (recursive : Bool) : Prop :=
  ∃ source target, draft.registry.idOf? caller = some source ∧
    draft.registry.idOf? method = some target ∧
    ⟨source, target, recursive⟩ ∈ draft.calls.calls

/-- Every call of a draft joins two methods of it. -/
def Linked (draft : Draft) : Prop :=
  ∀ call ∈ draft.calls.calls, ∃ caller method,
    draft.registry.idOf? caller = some call.source ∧
    draft.registry.idOf? method = some call.target

section Fresh

variable {colors : ColorSource} {chains : List (List Label)}

theorem calls_meetAll_fresh (entries : List Label) (colors : ColorSource)
    (chains : List (List Label)) :
    ((fresh colors).meetAll entries chains).calls =
      CallSet.ofList (callsMet ((fresh colors).meetAll entries chains).registry chains) :=
  calls_meetAll chains

/-- The two newest methods of a chain that was met have identifiers. -/
theorem idOf?_of_mem (draft : Draft) (entries : List Label) {caller method : Label}
    {below : List Label}
    (hmem : caller :: method :: below ∈ chains) :
    let registry := (draft.meetAll entries chains).registry
    registry.idOf? caller = some (registry.idOf caller) ∧
      registry.idOf? method = some (registry.idOf method) := by
  have hknown : ∀ label ∈ [caller, method],
      (draft.meetAll entries chains).registry.idOf? label =
        some ((draft.meetAll entries chains).registry.idOf label) := by
    intro label hlabel
    have hmet : label ∈ (draft.meetAll entries chains).registry.labels :=
      mem_labels_meetAll.2 (Or.inl ⟨_, hmem, by simpa using hlabel⟩)
    obtain ⟨id, hid⟩ := Registry.exists_idOf?_iff.2 hmet
    rw [hid, Registry.idOf_of_eq_some hid]
  exact ⟨hknown caller (by simp), hknown method (by simp)⟩

theorem linked_meetAll_fresh : ((fresh colors).meetAll entries chains).Linked := by
  intro call hcall
  rw [calls_meetAll_fresh] at hcall
  obtain ⟨⟨added, hadded, hends⟩, -⟩ := CallSet.mem_ofList.1 hcall
  obtain ⟨caller, method, below, hmem, rfl⟩ := mem_callsMet.1 hadded
  obtain ⟨hcaller, hmethod⟩ := idOf?_of_mem (fresh colors) entries hmem
  obtain ⟨hsource, htarget⟩ := Prod.mk.inj hends
  exact ⟨caller, method, hsource ▸ hcaller, htarget ▸ hmethod⟩

/-- The calls that are added between two methods come from the chains that
have these two at their end. -/
theorem mem_callsMet_between {caller method : Label} {source target : NodeId}
    (hcaller : ((fresh colors).meetAll entries chains).registry.idOf? caller = some source)
    (hmethod : ((fresh colors).meetAll entries chains).registry.idOf? method = some target)
    (added : Call) :
    (added ∈ callsMet ((fresh colors).meetAll entries chains).registry chains ∧
        added.ends = (source, target)) ↔
      ∃ below, caller :: method :: below ∈ chains ∧
        added = ⟨source, target, closesCycle (caller :: method :: below)⟩ := by
  have horderly := ((tidy_fresh entries colors).meetAll chains).orderly
  constructor
  · intro h
    obtain ⟨hadded, hends⟩ := h
    obtain ⟨other, callee, below, hmem, rfl⟩ := mem_callsMet.1 hadded
    obtain ⟨hother, hcallee⟩ := idOf?_of_mem (fresh colors) entries hmem
    obtain ⟨rfl, rfl⟩ := Prod.mk.inj hends
    obtain rfl := horderly.idOf?_injective hother hcaller
    obtain rfl := horderly.idOf?_injective hcallee hmethod
    exact ⟨below, hmem, rfl⟩
  · intro h
    obtain ⟨below, hmem, rfl⟩ := h
    refine ⟨mem_callsMet.2 ⟨_, _, _, hmem, ?_⟩, rfl⟩
    rw [Registry.idOf_of_eq_some hcaller, Registry.idOf_of_eq_some hmethod]

/-- Of the chains that end in two methods one call is left, recursive when
all of them close a cycle. -/
theorem mem_calls_meetAll_fresh {caller method : Label} {source target : NodeId}
    {recursive : Bool}
    (hcaller : ((fresh colors).meetAll entries chains).registry.idOf? caller = some source)
    (hmethod : ((fresh colors).meetAll entries chains).registry.idOf? method = some target) :
    ⟨source, target, recursive⟩ ∈ ((fresh colors).meetAll entries chains).calls.calls ↔
      (∃ below, caller :: method :: below ∈ chains) ∧
      (recursive = true ↔ ∀ below, caller :: method :: below ∈ chains →
        closesCycle (caller :: method :: below) = true) := by
  have hbetween := mem_callsMet_between hcaller hmethod
  rw [calls_meetAll_fresh, CallSet.mem_ofList]
  refine and_congr ?_ (iff_congr Iff.rfl ?_)
  · constructor
    · intro h
      obtain ⟨added, hadded⟩ := h
      obtain ⟨below, hmem, -⟩ := (hbetween added).1 hadded
      exact ⟨below, hmem⟩
    · intro h
      obtain ⟨below, hmem⟩ := h
      exact ⟨_, (hbetween _).2 ⟨below, hmem, rfl⟩⟩
  · constructor
    · intro h below hmem
      obtain ⟨hadded, hends⟩ := (hbetween _).2 ⟨below, hmem, rfl⟩
      exact h _ hadded hends
    · intro h added hadded hends
      obtain ⟨below, hmem, rfl⟩ := (hbetween added).1 ⟨hadded, hends⟩
      exact h below hmem

/-- **Calls by labels.**  Chains leave a call between two methods when one of
them has these at its end, and it is recursive when all of them that do so
close a cycle. -/
theorem hasCall_meetAll_fresh {caller method : Label} {recursive : Bool} :
    ((fresh colors).meetAll entries chains).HasCall caller method recursive ↔
      (∃ below, caller :: method :: below ∈ chains) ∧
      (recursive = true ↔ ∀ below, caller :: method :: below ∈ chains →
        closesCycle (caller :: method :: below) = true) := by
  constructor
  · intro h
    obtain ⟨source, target, hcaller, hmethod, hcall⟩ := h
    exact (mem_calls_meetAll_fresh hcaller hmethod).1 hcall
  · intro h
    obtain ⟨below, hmem⟩ := h.1
    obtain ⟨hcaller, hmethod⟩ := idOf?_of_mem (fresh colors) entries hmem
    exact ⟨_, _, hcaller, hmethod, (mem_calls_meetAll_fresh hcaller hmethod).2 h⟩

theorem nodup_ends_meetAll_fresh :
    (((fresh colors).meetAll entries chains).calls.calls.map Call.ends).Nodup := by
  rw [calls_meetAll_fresh]
  exact CallSet.nodup_ends_ofList _

end Fresh

end Draft

end CallerGraph
