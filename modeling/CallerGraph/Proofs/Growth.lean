import CallerGraph.Hierarchy
import CallerGraph.Proofs.Endings
import CallerGraph.Proofs.Finishing
import CallerGraph.Proofs.HierarchyAgreement

/-!
# How drafts grow

Exploring a source and reading a hierarchy are two ways to a draft, and both
take the same three steps: an entry is registered; a method that is known is
registered once more; a caller is registered and, before anything else
happens, linked to a method that is known.  `Draft.Step` is one of these steps
and `Draft.Grows` any number of them.

What a step does to identifiers, calls and marks is said once, in `Step.keeps`
and `Step.sound`.  That an exploration takes no other steps, whatever the
resolver does and however it ends, is `Explore.growsIn_visit`; that reading
takes no others, whatever the text, is `Hierarchy.Reading.grows_readLine`.
-/

namespace CallerGraph

/-- Adding a call adds its pair and no other. -/
theorem CallSet.mem_ends_add {set : CallSet} {call : Call} {pair : NodeId × NodeId} :
    pair ∈ (set.add call).calls.map Call.ends ↔
      pair = call.ends ∨ pair ∈ set.calls.map Call.ends := by
  rw [ends_add]
  by_cases hnew : set.isNew call = true
  · rw [if_pos hnew, List.mem_append, List.mem_singleton, or_comm]
  · have hold : call.ends ∈ set.calls.map Call.ends := not_not.1 fun h => hnew (isNew_iff.2 h)
    rw [if_neg hnew]
    constructor
    · exact Or.inr
    · rintro (rfl | hpair)
      · exact hold
      · exact hpair

namespace Draft

variable {draft middle later : Draft} {label : Label} {id : NodeId}

/-- One step in the making of a draft. -/
inductive Step (draft : Draft) : Draft → Prop
  /-- An entry is registered. -/
  | entry (label : Label) : Step draft (draft.register label true).2
  /-- A known method is registered once more. -/
  | again {known : Label} (hknown : known ∈ draft.registry.labels) (entry : Bool) :
      Step draft (draft.register known entry).2
  /-- A caller is registered and linked to a known method. -/
  | caller (caller : Label) (entry recursive : Bool) {method : Label} {target : NodeId}
      (hmethod : draft.registry.idOf? method = some target) :
      Step draft ((draft.register caller entry).2.link
        ⟨(draft.register caller entry).1, target, recursive⟩)

/-- Any number of steps. -/
inductive Grows (draft : Draft) : Draft → Prop
  | refl : Grows draft draft
  | step {before after : Draft} (hgrows : Grows draft before) (hstep : before.Step after) :
      Grows draft after

theorem Grows.trans (hfirst : draft.Grows middle) (hthen : middle.Grows later) :
    draft.Grows later := by
  induction hthen with
  | refl => exact hfirst
  | step _ hstep ih => exact ih.step hstep

theorem Step.grows (h : draft.Step later) : draft.Grows later :=
  Grows.refl.step h

/-- What is in a draft stays in it: methods with their nodes, except that these
may become entries, and pairs of methods that are linked. -/
structure Keeps (draft later : Draft) : Prop where
  find? : ∀ {label node}, draft.registry.find? label = some node →
    ∃ entry, later.registry.find? label = some (node.escalate entry)
  ends : ∀ {pair}, pair ∈ draft.calls.calls.map Call.ends → pair ∈ later.calls.calls.map Call.ends

namespace Keeps

theorem refl (draft : Draft) : draft.Keeps draft where
  find? {label node} h := ⟨false, by rw [h, Node.escalate_of_imp (by simp)]⟩
  ends h := h

theorem trans (hfirst : draft.Keeps middle) (hthen : middle.Keeps later) :
    draft.Keeps later where
  find? {label node} h := by
    obtain ⟨first, hmiddle⟩ := hfirst.find? h
    obtain ⟨second, hlater⟩ := hthen.find? hmiddle
    refine ⟨first || second, hlater.trans ?_⟩
    simp only [Node.escalate, Bool.or_assoc]
  ends h := hthen.ends (hfirst.ends h)

theorem idOf? (h : draft.Keeps later) {label : Label} {id : NodeId}
    (hid : draft.registry.idOf? label = some id) : later.registry.idOf? label = some id := by
  obtain ⟨node, hnode, rfl⟩ := Option.map_eq_some_iff.1 hid
  obtain ⟨entry, hlater⟩ := h.find? hnode
  rw [Registry.idOf?, hlater, Option.map_some, Node.id_escalate]

theorem labels (h : draft.Keeps later) {label : Label}
    (hknown : label ∈ draft.registry.labels) : label ∈ later.registry.labels := by
  obtain ⟨id, hid⟩ := Registry.exists_idOf?_iff.2 hknown
  exact Registry.exists_idOf?_iff.1 ⟨id, h.idOf? hid⟩

theorem marks (h : draft.Keeps later) {label : Label}
    (hmarks : draft.registry.Marks label) : later.registry.Marks label := by
  obtain ⟨node, hnode, hentry⟩ := hmarks
  obtain ⟨entry, hlater⟩ := h.find? hnode
  exact ⟨_, hlater, by simp [hentry]⟩

end Keeps

theorem keeps_register (draft : Draft) (label : Label) (entry : Bool) :
    draft.Keeps (draft.register label entry).2 where
  find? {other node} h := by
    rw [registry_register, Registry.find?_register]
    by_cases hlabel : other = label
    · subst hlabel
      exact ⟨entry, by rw [if_pos rfl, Registry.register_of_find?_eq_some h]⟩
    · rw [if_neg hlabel]
      exact (Keeps.refl draft).find? h
  ends h := h

theorem keeps_link (draft : Draft) (call : Call) : draft.Keeps (draft.link call) where
  find? h := (Keeps.refl draft).find? h
  ends h := CallSet.mem_ends_add.2 (Or.inr h)

theorem Step.keeps (h : draft.Step later) : draft.Keeps later := by
  cases h with
  | entry label => exact keeps_register draft label true
  | again _ entry => exact keeps_register draft _ entry
  | caller caller entry recursive hmethod =>
      exact (keeps_register draft caller entry).trans (keeps_link _ _)

/-- **Nothing is taken back.** -/
theorem Grows.keeps (h : draft.Grows later) : draft.Keeps later := by
  induction h with
  | refl => exact .refl draft
  | step _ hstep ih => exact ih.trans hstep.keeps

/-- What every step keeps, a draft has as long as it grows. -/
theorem Grows.invariant {motive : Draft → Prop}
    (step : ∀ {draft later : Draft}, draft.Step later → motive draft → motive later)
    (h : draft.Grows later) (hstart : motive draft) : motive later := by
  induction h with
  | refl => exact hstart
  | step _ hstep ih => exact step hstep ih

/-- The labels are in order, and calls join known methods, at most one call
any two. -/
structure Sound (draft : Draft) : Prop where
  orderly : draft.registry.Orderly
  linked : draft.Linked
  ends_nodup : (draft.calls.calls.map Call.ends).Nodup

theorem sound_fresh (source : ColorSource) : (fresh source).Sound where
  orderly := Registry.orderly_fresh source
  linked _ hcall := absurd hcall List.not_mem_nil
  ends_nodup := List.nodup_nil

/-- Whether a draft is linked can be told from the pairs. -/
theorem linked_iff_ends : draft.Linked ↔ ∀ pair ∈ draft.calls.calls.map Call.ends,
    ∃ caller method, draft.registry.idOf? caller = some pair.1 ∧
      draft.registry.idOf? method = some pair.2 := by
  simp only [Linked, List.forall_mem_map]
  rfl

theorem Sound.register (h : draft.Sound) (label : Label) (entry : Bool) :
    (draft.register label entry).2.Sound where
  orderly := h.orderly.register label entry
  linked call hcall := by
    obtain ⟨caller, method, hcaller, hmethod⟩ := h.linked call hcall
    have hkeeps := keeps_register draft label entry
    exact ⟨caller, method, hkeeps.idOf? hcaller, hkeeps.idOf? hmethod⟩
  ends_nodup := h.ends_nodup

theorem Sound.link (h : draft.Sound) {caller method : Label} {source target : NodeId}
    (hcaller : draft.registry.idOf? caller = some source)
    (hmethod : draft.registry.idOf? method = some target) (recursive : Bool) :
    (draft.link ⟨source, target, recursive⟩).Sound where
  orderly := h.orderly
  linked := by
    refine linked_iff_ends.2 fun pair hpair => ?_
    rcases CallSet.mem_ends_add.1 hpair with rfl | hold
    · exact ⟨caller, method, hcaller, hmethod⟩
    · exact linked_iff_ends.1 h.linked pair hold
  ends_nodup := CallSet.nodup_ends_add h.ends_nodup _

theorem Step.sound (hstep : draft.Step later) (h : draft.Sound) : later.Sound := by
  cases hstep with
  | entry label => exact h.register label true
  | again _ entry => exact h.register _ entry
  | caller caller entry recursive hmethod =>
      have hknown := (keeps_register draft caller entry).idOf? hmethod
      exact (h.register caller entry).link Registry.idOf?_register_self hknown recursive

/-- A sound draft goes by its labels. -/
theorem Sound.labelled (h : draft.Sound) : draft.parts.Labelled draft.registry.idOf? :=
  labelled_parts h.orderly h.linked h.ends_nodup

/-- **What grows from nothing is sound.** -/
theorem sound_of_grows {source : ColorSource} (h : (fresh source).Grows draft) : draft.Sound :=
  h.invariant Step.sound (sound_fresh source)

end Draft

namespace Explore

variable {σ α β : Type} {resolver : Resolver σ} {options : ExploreOptions}
  {entries : List Label}

/-- Does the draft only grow in the step, however the step ends? -/
def GrowsIn (step : Explore σ α) (found : Exploration σ) : Prop :=
  found.draft.Grows (leftBy (step.run found)).draft

theorem GrowsIn.of_run {step : Explore σ α} {found left : Exploration σ} {value : α}
    (h : GrowsIn step found) (hrun : step.run found = .ok value left) :
    found.draft.Grows left.draft := by
  unfold GrowsIn at h
  rw [hrun] at h
  exact h

theorem GrowsIn.bind {step : Explore σ α} {next : α → Explore σ β} {found : Exploration σ}
    (hstep : GrowsIn step found)
    (hnext : ∀ value left, step.run found = .ok value left → found.draft.Grows left.draft →
      GrowsIn (next value) left) :
    GrowsIn (step >>= next) found := by
  unfold GrowsIn
  rw [EStateM.run_bind]
  cases hrun : step.run found with
  | error error left =>
      unfold GrowsIn at hstep
      rw [hrun] at hstep
      exact hstep
  | ok value left =>
      have hgrown := hstep.of_run hrun
      exact hgrown.trans (hnext value left hrun hgrown)

theorem growsIn_pure (value : α) (found : Exploration σ) :
    GrowsIn (pure value : Explore σ α) found :=
  .refl

/-- A loop whose every turn lets the draft only grow, as long as something holds
that growing does not change. -/
theorem growsIn_forM {items : List α} {step : α → Explore σ PUnit} {motive : Draft → Prop}
    (hkeeps : ∀ {draft later : Draft}, draft.Grows later → motive draft → motive later)
    (hstep : ∀ item ∈ items, ∀ found, motive found.draft → GrowsIn (step item) found)
    (found : Exploration σ) (hstart : motive found.draft) : GrowsIn (items.forM step) found := by
  induction items generalizing found with
  | nil => exact growsIn_pure _ found
  | cons item items ih =>
      refine (hstep item List.mem_cons_self found hstart).bind fun _ left _ hgrown => ?_
      exact ih (fun other hother => hstep other (List.mem_cons_of_mem _ hother)) left
        (hkeeps hgrown hstart)

theorem growsIn_check (found : Exploration σ) : GrowsIn (check : Explore σ Unit) found := by
  unfold GrowsIn
  cases hcancelled : found.session.cancelled with
  | false =>
      rw [run_check hcancelled]
      exact .refl
  | true =>
      rw [run_check_of_cancelled hcancelled]
      exact .refl

theorem growsIn_tell (event : Event) (found : Exploration σ) :
    GrowsIn (tell event : Explore σ Unit) found :=
  .refl

/-- A lookup with its screening leaves the draft alone. -/
theorem growsIn_callersInScope (resolver : Resolver σ) (scope : Scope) (method : Label)
    (below : List Label) (found : Exploration σ) :
    GrowsIn (callersInScope resolver scope method below) found := by
  unfold GrowsIn
  rw [run_callersInScope_eq]
  cases hbefore : found.session.cancelled with
  | true => exact .refl
  | false =>
      cases hanswer : (found.session.askCallers resolver method below).1 with
      | error message =>
          simp only [hanswer]
          exact .refl
      | ok callers =>
          cases hafter : (found.session.askCallers resolver method below).2.cancelled with
          | true =>
              simp only [hanswer, hafter]
              exact .refl
          | false =>
              simp only [hanswer, hafter]
              exact .refl

/-- An entry may be registered at any time, and a known method again. -/
theorem growsIn_register {method : Label} {found : Exploration σ}
    (hmethod : method ∈ entries ∨ method ∈ found.draft.registry.labels) :
    GrowsIn (register entries method) found := by
  have hstep : found.draft.Step (found.draft.register method (entries.contains method)).2 := by
    rcases hmethod with hentry | hknown
    · rw [List.contains_iff_mem.2 hentry]
      exact .entry method
    · exact .again hknown _
  exact hstep.grows

/-- A turn of the loop over the callers of a known method, if the visit that it
may make lets the draft only grow. -/
theorem growsIn_turn {hops : Nat} {below : List Label} {method caller : Label}
    {target : NodeId} {found : Exploration σ}
    (hvisit : ∀ found : Exploration σ, caller ∈ found.draft.registry.labels →
      GrowsIn (visit resolver options entries hops (method :: below) caller) found)
    (hmethod : found.draft.registry.idOf? method = some target) :
    GrowsIn (turn resolver options entries hops below method target caller) found := by
  unfold GrowsIn
  by_cases hmem : caller ∈ method :: below
  · cases hcycles : options.cycles with
    | drop =>
        rw [run_turn_drop hmem hcycles]
        exact .refl
    | mark =>
        rw [run_turn_mark hmem hcycles]
        exact (Draft.Step.caller caller _ true hmethod).grows
  · rw [run_turn_of_not_mem hmem]
    have hlinked := (Draft.Step.caller caller (entries.contains caller) false hmethod).grows
    refine hlinked.trans (hvisit ⟨_, _⟩ ?_)
    exact Registry.mem_labels_register.2 (Or.inl rfl)

/-- **Following one chain lets the draft only grow.** -/
theorem growsIn_visit (resolver : Resolver σ) (options : ExploreOptions) (entries : List Label)
    (hops : Nat) (below : List Label) (method : Label) (found : Exploration σ)
    (hmethod : method ∈ entries ∨ method ∈ found.draft.registry.labels) :
    GrowsIn (visit resolver options entries hops below method) found := by
  induction hops generalizing below method found with
  | zero =>
      refine (growsIn_check found).bind fun _ left _ hgrown => ?_
      have hstill := hmethod.imp_right hgrown.keeps.labels
      refine (growsIn_register hstill).bind fun _ _ _ _ => ?_
      exact growsIn_pure _ _
  | succ hops ih =>
      rw [visit_succ]
      refine (growsIn_check found).bind fun _ left _ hgrown => ?_
      have hstill := hmethod.imp_right hgrown.keeps.labels
      refine (growsIn_register hstill).bind fun target known hrun _ => ?_
      have htarget : known.draft.registry.idOf? method = some target := by
        rw [run_register] at hrun
        cases hrun
        exact Registry.idOf?_register_self
      refine (growsIn_callersInScope resolver options.scope method below known).bind
        fun callers looked _ hlooked => ?_
      refine (growsIn_tell _ looked).bind fun _ told _ htold => ?_
      refine growsIn_forM (motive := fun draft => draft.registry.idOf? method = some target)
        (fun hgrows h => hgrows.keeps.idOf? h) (fun caller _ found hfound => ?_) told
        (htold.keeps.idOf? (hlooked.keeps.idOf? htarget))
      exact growsIn_turn (fun found hcaller => ih _ _ found (Or.inr hcaller)) hfound

theorem growsIn_visitEntries (resolver : Resolver σ) (options : ExploreOptions)
    (entries : List Label) (found : Exploration σ) :
    GrowsIn (visitEntries resolver options entries) found :=
  growsIn_forM (motive := fun _ => True) (fun _ h => h)
    (fun entry hentry found _ => growsIn_visit resolver options entries _ [] entry found
      (Or.inl hentry))
    found trivial

end Explore

/-- **An exploration grows its draft from nothing,** whatever the resolver
does. -/
theorem grows_of_explore {σ : Type} {resolver : Resolver σ} {options : ExploreOptions}
    {entries : List Label} {session : Session σ} {draft : Draft}
    (hrun : (explore resolver options entries session).1 = .ok draft) :
    (Draft.fresh options.colors).Grows draft := by
  have hgrown := Explore.growsIn_visitEntries resolver options entries
    ⟨.fresh options.colors, session⟩
  rw [explore_eq_concluded] at hrun
  cases hvisited : (Explore.visitEntries resolver options entries).run
      ⟨.fresh options.colors, session⟩ with
  | error error left =>
      rw [hvisited] at hrun
      cases hrun
  | ok value left =>
      rw [hvisited] at hrun
      cases hrun
      exact hgrown.of_run hvisited

namespace Hierarchy

namespace Reading

variable {reading : Reading}

/-- Whatever the next line may stand under is known. -/
def Rooted (reading : Reading) : Prop :=
  ∀ id ∈ reading.ancestors, ∃ label, reading.draft.registry.idOf? label = some id

theorem rooted_start (colors : ColorSource) : (start colors).Rooted :=
  List.forall_mem_nil _

/-- What is known stays known, so it is enough that the stack is not added
to. -/
theorem Rooted.mono {after : Reading} (h : reading.Rooted)
    (hdraft : reading.draft.Grows after.draft) (hsub : after.ancestors ⊆ reading.ancestors) :
    after.Rooted := by
  intro id hid
  obtain ⟨label, hlabel⟩ := h id (hsub hid)
  exact ⟨label, hdraft.keeps.idOf? hlabel⟩

/-- A marker registers a caller and links it to the line that it stands
under, or does nothing. -/
theorem grows_readMarker (h : reading.Rooted) (cycles : CyclePolicy) (label : Label) :
    reading.draft.Grows (reading.readMarker cycles label).draft := by
  unfold readMarker
  split
  case h_1 parent hparent =>
    obtain ⟨method, hmethod⟩ := h parent (List.mem_of_getLast? hparent)
    exact (Draft.Step.caller label false true hmethod).grows
  case h_2 => exact .refl

/-- A label is registered as an entry when nothing stands above it, and
otherwise as a caller of the line that it stands under. -/
theorem grows_readLabel (h : reading.Rooted) (label : Label) :
    reading.draft.Grows (reading.readLabel label).draft := by
  cases hancestors : reading.ancestors with
  | nil =>
      simp only [readLabel, hancestors]
      exact (Draft.Step.entry label).grows
  | cons first others =>
      obtain ⟨parent, hparent⟩ : ∃ parent, reading.ancestors.getLast? = some parent := by
        rw [hancestors]
        exact ⟨_, List.getLast?_eq_some_getLast (List.cons_ne_nil first others)⟩
      obtain ⟨method, hmethod⟩ := h parent (List.mem_of_getLast? hparent)
      simp only [readLabel, hparent]
      exact (Draft.Step.caller label _ false hmethod).grows

theorem rooted_readLabel (h : reading.Rooted) (label : Label) :
    (reading.readLabel label).Rooted := by
  intro id hid
  have hgrown := grows_readLabel h label
  rcases List.mem_append.1 hid with hold | hnew
  · obtain ⟨known, hknown⟩ := h id hold
    exact ⟨known, hgrown.keeps.idOf? hknown⟩
  · obtain rfl := List.mem_singleton.1 hnew
    exact ⟨label, idOf?_readLabel reading label⟩

/-- **Reading a line lets the draft only grow,** and leaves known methods on
the stack. -/
theorem grows_readLine (h : reading.Rooted) (options : HierarchyOptions) (line : List Char)
    (number : Nat) :
    reading.draft.Grows (reading.readLine options line number).draft ∧
      (reading.readLine options line number).Rooted := by
  have hcut : ∀ level, Rooted { reading with ancestors := reading.ancestors.take level } :=
    fun level => h.mono .refl (List.take_subset level _)
  simp only [readLine]
  split
  · exact ⟨.refl, h⟩
  · split
    case h_1 label _ =>
      let level := reading.level options.indentWidth line
      let told := Reading.tell { reading with ancestors := reading.ancestors.take level }
        [.recursiveMarker number (String.ofList label)]
      have htold : told.Rooted := hcut level
      have hgrown := grows_readMarker htold options.cycles ⟨String.ofList label⟩
      have hstack : (told.readMarker options.cycles ⟨String.ofList label⟩).ancestors ⊆
          told.ancestors := by
        rw [ancestors_readMarker]
        exact List.Subset.refl _
      exact ⟨hgrown, htold.mono hgrown hstack⟩
    case h_2 => exact ⟨grows_readLabel (hcut _) _, rooted_readLabel (hcut _) _⟩

/-- Reading lines one after the other does the same. -/
theorem grows_readLines (h : reading.Rooted) (options : HierarchyOptions)
    (lines : List (List Char)) (number : Nat) :
    reading.draft.Grows (reading.readLines options lines number).draft ∧
      (reading.readLines options lines number).Rooted := by
  induction lines generalizing reading number with
  | nil => exact ⟨.refl, h⟩
  | cons line lines ih =>
      obtain ⟨hfirst, hrooted⟩ := grows_readLine h options line number
      obtain ⟨hrest, hend⟩ := ih hrooted (number + 1)
      exact ⟨hfirst.trans hrest, hend⟩

end Reading

/-- **Reading grows its draft from nothing,** whatever the text. -/
theorem grows_read (options : HierarchyOptions) (text : String) :
    (Draft.fresh options.colors).Grows (read options text).draft :=
  (Reading.grows_readLines (Reading.rooted_start options.colors) options _ 1).1

end Hierarchy

end CallerGraph
