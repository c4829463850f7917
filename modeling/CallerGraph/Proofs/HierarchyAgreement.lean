import CallerGraph.Proofs.Traversal
import CallerGraph.Proofs.WrittenLine

/-!
# Exploring and reading agree

Writing the itinerary of an exploration as an indented hierarchy and reading
it back gives the draft of the exploration, down to numbers, colours and the
order of calls.

The two sides go in step.  Where the exploration stands at the end of a
chain, the reading has the identifiers of that chain on its stack, and one
line does what meeting one chain does.  Only the marks of entries run apart:
an exploration marks every entry when it first meets it, a reading when it
comes to the line of the entry itself.  So the drafts are compared with the
marks of all entries added, which at the end adds nothing.
-/

namespace CallerGraph

namespace Registry

variable {registry : Registry} {entries : List Label} {label : Label} {entry : Bool}

/-- The registry with every one of the entries marked that it knows. -/
def marked (entries : List Label) (registry : Registry) : Registry :=
  { registry with entries := registry.entries.map fun known =>
      (known.1, known.2.escalate (entries.contains known.1)) }

theorem find?_marked :
    (registry.marked entries).find? label =
      (registry.find? label).map (Node.escalate (entries.contains label)) := by
  simp only [find?, marked, List.find?_map, Option.map_map]
  cases hfound : registry.entries.find? (·.1 == label) with
  | none =>
      have hnone : registry.entries.find?
          ((·.1 == label) ∘ fun known => (known.1, known.2.escalate (entries.contains known.1))) =
          none := hfound
      rw [hnone]
      rfl
  | some known =>
      have hsome : registry.entries.find?
          ((·.1 == label) ∘ fun known => (known.1, known.2.escalate (entries.contains known.1))) =
          some known := hfound
      have hlabel : known.1 = label := beq_iff_eq.1 (List.find?_some hfound :)
      rw [hsome]
      simp [hlabel]

@[simp] theorem idOf?_marked : (registry.marked entries).idOf? label = registry.idOf? label := by
  rw [idOf?, find?_marked, Option.map_map]
  rfl

theorem newNode_marked (hentry : entry = true → entries.contains label = true) :
    (registry.marked entries).newNode label (entries.contains label) =
      ((registry.newNode label entry).1.escalate (entries.contains label),
        (registry.newNode label entry).2) := by
  have hflag : (entry || entries.contains label) = entries.contains label := by
    cases entry with
    | false => rfl
    | true => rw [hentry rfl, Bool.or_self]
  simp only [newNode, size, marked, List.length_map, Node.escalate, Node.ofParts, hflag]

/-- **Registering and marking commute,** if only entries are registered as
such. -/
theorem marked_register (hentry : entry = true → entries.contains label = true) :
    (registry.marked entries).register label (entries.contains label) =
      ((registry.register label entry).1.escalate (entries.contains label),
        (registry.register label entry).2.marked entries) := by
  have hflag : ∀ node : Node, (node.escalate (entries.contains label)).escalate
      (entries.contains label) = (node.escalate entry).escalate (entries.contains label) := by
    intro node
    cases entry with
    | false => simp [Node.escalate]
    | true => simp only [Node.escalate, hentry rfl, Bool.or_true]
  cases hfound : registry.find? label with
  | some node =>
      have hmarked : (registry.marked entries).find? label =
          some (node.escalate (entries.contains label)) := by
        rw [find?_marked, hfound, Option.map_some]
      rw [register_of_find?_eq_some hmarked, register_of_find?_eq_some hfound, hflag]
      congr 1
      simp only [Registry.escalate, marked, List.map_map]
      congr 1
      apply List.map_congr_left
      intro known _
      simp only [Function.comp]
      by_cases hlabel : known.1 = label
      · simp only [hlabel, if_true, hflag]
      · simp only [hlabel, if_false]
  | none =>
      have hmarked : (registry.marked entries).find? label = none := by
        rw [find?_marked, hfound, Option.map_none]
      rw [register_of_find?_eq_none hmarked, register_of_find?_eq_none hfound,
        newNode_marked hentry]
      simp [marked]

/-- Marks that are there already add nothing. -/
theorem marked_eq_self (hmarked : ∀ known ∈ registry.entries,
    entries.contains known.1 = true → known.2.isEntry = true) :
    registry.marked entries = registry := by
  have hsame : (registry.entries.map fun known =>
      (known.1, known.2.escalate (entries.contains known.1))) = registry.entries.map id := by
    apply List.map_congr_left
    intro known hmem
    rw [Node.escalate_of_imp (hmarked known hmem), id]
  rw [marked, hsame, List.map_id]

@[simp] theorem labels_marked : (registry.marked entries).labels = registry.labels := by
  simp [labels, marked]

/-- Is the label known as an entry? -/
def Marks (registry : Registry) (label : Label) : Prop :=
  ∃ node, registry.find? label = some node ∧ node.isEntry = true

theorem marks_register_self : (registry.register label true).2.Marks label := by
  refine ⟨_, by rw [find?_register, if_pos rfl], ?_⟩
  cases hfound : registry.find? label with
  | some node => simp [register_of_find?_eq_some hfound]
  | none => simp [register_of_find?_eq_none hfound, newNode]

/-- Once all entries are marked there is nothing left to add. -/
theorem marked_eq_self_of_marks (hnodup : registry.labels.Nodup)
    (hmarks : ∀ entry ∈ entries, registry.Marks entry) : registry.marked entries = registry := by
  apply marked_eq_self
  intro known hknown hentry
  obtain ⟨node, hfound, hnode⟩ := hmarks known.1 (List.contains_iff_mem.1 hentry)
  rw [(find?_eq_some_iff hnodup).2 hknown] at hfound
  exact Option.some.inj hfound ▸ hnode

/-- A mark stays. -/
theorem Marks.register {other : Label} (h : registry.Marks other) (label : Label) (entry : Bool) :
    (registry.register label entry).2.Marks other := by
  obtain ⟨node, hfound, hnode⟩ := h
  by_cases heq : other = label
  · subst heq
    refine ⟨node.escalate entry, ?_, by simp [hnode]⟩
    rw [find?_register, if_pos rfl, register_of_find?_eq_some hfound]
  · exact ⟨node, by rw [find?_register, if_neg heq, hfound], hnode⟩

end Registry

namespace Draft

variable {draft : Draft} {entries : List Label} {label : Label} {entry : Bool}

/-- The draft with the marks of all entries. -/
def marked (entries : List Label) (draft : Draft) : Draft :=
  { draft with registry := draft.registry.marked entries }

theorem marked_register (draft : Draft)
    (hentry : entry = true → entries.contains label = true) :
    (draft.marked entries).register label (entries.contains label) =
      ((draft.register label entry).1, (draft.register label entry).2.marked entries) := by
  simp only [Draft.register, marked, Registry.marked_register hentry, Node.id_escalate]

theorem marked_link (entries : List Label) (draft : Draft) (call : Call) :
    (draft.link call).marked entries = (draft.marked entries).link call := rfl

end Draft

namespace Hierarchy

namespace Reading

variable {options : HierarchyOptions} {reading : Reading} {entries chain : List Label}
  {label : Label}

theorem readLines_append (options : HierarchyOptions) (reading : Reading)
    (lines others : List (List Char)) (number : Nat) :
    reading.readLines options (lines ++ others) number =
      (reading.readLines options lines number).readLines options others
        (number + lines.length) := by
  induction lines generalizing reading number with
  | nil => rfl
  | cons line lines ih =>
      rw [List.cons_append, readLines, ih, readLines, List.length_cons,
        Nat.add_right_comm number, Nat.add_assoc number]

/-- Putting a label under the ancestors registers it. -/
theorem registry_readLabel (reading : Reading) (label : Label) :
    (reading.readLabel label).draft.registry =
      (reading.draft.register label reading.ancestors.isEmpty).2.registry := by
  unfold readLabel
  cases reading.ancestors.getLast? <;> rfl

theorem idOf?_readLabel (reading : Reading) (label : Label) :
    (reading.readLabel label).draft.registry.idOf? label =
      some (reading.draft.register label reading.ancestors.isEmpty).1 := by
  rw [registry_readLabel]
  exact Registry.idOf?_register_self

/-- What registrations keep, a line keeps. -/
theorem readLine_induction {motive : Registry → Prop}
    (register : ∀ registry label entry, motive registry →
      motive (registry.register label entry).2)
    (line : List Char) (number : Nat) (hstart : motive reading.draft.registry) :
    motive (reading.readLine options line number).draft.registry := by
  have hmarker : ∀ (reading : Reading) label, motive reading.draft.registry →
      motive (reading.readMarker options.cycles label).draft.registry := by
    intro reading label h
    unfold readMarker
    split
    · exact register _ _ _ h
    · exact h
  have hlabel : ∀ (reading : Reading) label, motive reading.draft.registry →
      motive (reading.readLabel label).draft.registry := by
    intro reading label h
    rw [registry_readLabel]
    exact register _ _ _ h
  simp only [readLine]
  split
  · exact hstart
  · split
    · exact hmarker _ _ hstart
    · exact hlabel _ _ hstart

/-- What registrations keep, lines keep. -/
theorem readLines_induction {motive : Registry → Prop}
    (register : ∀ registry label entry, motive registry →
      motive (registry.register label entry).2)
    (lines : List (List Char)) (number : Nat) (hstart : motive reading.draft.registry) :
    motive (reading.readLines options lines number).draft.registry := by
  induction lines generalizing reading number with
  | nil => exact hstart
  | cons line lines ih => exact ih _ (readLine_induction register line number hstart)

/-- Where a reading stands after the line of a chain: the identifiers of the
chain are what the next line can stand under, up to the level of the chain.
The marks of entries are still to come. -/
structure Stands (entries chain : List Label) (reading : Reading) : Prop where
  tidy : (reading.draft.marked entries).Tidy entries
  ancestors : (reading.ancestors.take chain.length).map some =
    chain.reverse.map (reading.draft.marked entries).registry.idOf?

/-- Whoever stands at the end of a chain stands inside it. -/
theorem Stands.tail (h : Stands entries (label :: chain) reading) :
    Stands entries chain reading := by
  refine ⟨h.tidy, ?_⟩
  have hfront := congrArg (List.take chain.length) h.ancestors
  rw [← List.map_take, List.take_take, List.length_cons, Nat.min_eq_left (Nat.le_succ _)] at hfront
  rw [hfront, List.reverse_cons, List.map_append, List.take_left' (by simp)]

/-- Where a reading stands does not change while chains are met and the
ancestors of the chain stay. -/
theorem Stands.meetAll {after : Reading} (h : Stands entries chain reading)
    {chains : List (List Label)}
    (hdraft : after.draft.marked entries =
      (reading.draft.marked entries).meetAll entries chains)
    (hancestors : after.ancestors.take chain.length = reading.ancestors.take chain.length) :
    Stands entries chain after := by
  refine ⟨hdraft ▸ h.tidy.meetAll chains, ?_⟩
  rw [hancestors, h.ancestors, hdraft]
  apply List.map_congr_left
  intro other hother
  have hknown := List.mem_map_of_mem (f := (reading.draft.marked entries).registry.idOf?) hother
  rw [← h.ancestors] at hknown
  obtain ⟨id, -, hid⟩ := List.mem_map.1 hknown
  rw [← hid, Draft.idOf?_meetAll hid.symm]

/-- Whoever stands at a chain with the identifier of another label next on
the stack stands at the longer chain. -/
theorem Stands.cons (h : Stands entries chain reading) {id : NodeId}
    (hknown : (reading.draft.marked entries).registry.idOf? label = some id)
    (hnext : reading.ancestors[chain.length]? = some id) :
    Stands entries (label :: chain) reading := by
  refine ⟨h.tidy, ?_⟩
  rw [List.length_cons, List.take_add_one, hnext, List.map_append, h.ancestors, List.reverse_cons,
    List.map_append, List.map_singleton, hknown]
  rfl

/-- Cutting the stack down to the level of the chain leaves just the chain
on it. -/
theorem Stands.cut (h : Stands entries chain reading) :
    Stands entries chain { reading with ancestors := reading.ancestors.take chain.length } := by
  refine ⟨h.tidy, ?_⟩
  rw [List.take_take, Nat.min_self]
  exact h.ancestors

theorem Stands.tell (h : Stands entries chain reading) (events : List Event) :
    Stands entries chain (reading.tell events) :=
  ⟨h.tidy, h.ancestors⟩

theorem Stands.length_cut (h : Stands entries chain reading) :
    (reading.ancestors.take chain.length).length = chain.length := by
  have hlengths := congrArg List.length h.ancestors
  simpa using hlengths

/-- With just a chain on the stack the newest of its methods is the one to
stand under. -/
theorem Stands.exists_parent {method : Label} {below : List Label}
    (h : Stands entries (method :: below) reading)
    (hlength : reading.ancestors.length = (method :: below).length) :
    ∃ target, reading.ancestors.getLast? = some target ∧
      (reading.draft.marked entries).registry.idOf? method = some target := by
  have hlast := congrArg List.getLast? h.ancestors
  rw [List.take_of_length_le hlength.le, List.getLast?_map, List.reverse_cons, List.map_append,
    List.map_singleton, List.getLast?_concat, Option.map_eq_some_iff] at hlast
  obtain ⟨target, htarget, hknown⟩ := hlast
  exact ⟨target, htarget, hknown.symm⟩

/-- Between two moments of a reading these chains were met, and it stands
behind the last line at the given chain. -/
structure Follows (entries chain : List Label) (chains : List (List Label))
    (reading after : Reading) : Prop where
  met : after.draft.marked entries = (reading.draft.marked entries).meetAll entries chains
  stands : Stands entries chain after

theorem Follows.trans {other : List Label} {chains further : List (List Label)}
    {middle after : Reading} (hfirst : Follows entries chain chains reading middle)
    (hsecond : Follows entries other further middle after) :
    Follows entries other (chains ++ further) reading after := by
  refine ⟨?_, hsecond.stands⟩
  rw [hsecond.met, hfirst.met, Draft.meetAll_append]

theorem Follows.tail {chains : List (List Label)} {after : Reading}
    (h : Follows entries (label :: chain) chains reading after) :
    Follows entries chain chains reading after :=
  ⟨h.met, h.stands.tail⟩

/-- With just a chain on the stack, putting a new label under it does to the
draft, marks apart, what meeting the longer chain does.  With nothing on the
stack the label is registered as an entry, so it has to be one. -/
theorem Stands.met_readLabel (hstands : Stands entries chain reading)
    (hlength : reading.ancestors.length = chain.length) (hnew : label ∉ chain)
    (hentry : chain = [] → label ∈ entries) :
    (reading.readLabel label).draft.marked entries =
      (reading.draft.marked entries).meetAll entries [label :: chain] := by
  have hflag : reading.ancestors.isEmpty = true → entries.contains label = true := by
    intro hempty
    rw [List.isEmpty_iff.1 hempty] at hlength
    exact List.contains_iff_mem.2 (hentry (List.length_eq_zero_iff.1 hlength.symm))
  have hmarked := Draft.marked_register reading.draft hflag
  cases chain with
  | nil =>
      have hnone : reading.ancestors.getLast? = none := by
        rw [List.length_eq_zero_iff.1 hlength]
        rfl
      simp only [Reading.readLabel, hnone]
      exact (congrArg Prod.snd hmarked).symm
  | cons method below =>
      obtain ⟨target, hparent, hknown⟩ := hstands.exists_parent hlength
      rw [Draft.meetAll_cons, Draft.meetAll_nil, hstands.tidy.meet_known hknown,
        closesCycle_eq_false_iff.2 hnew, hmarked, ← Draft.marked_link]
      simp only [Reading.readLabel, hparent]
      rfl

/-- **The line of a new method.**  Reading it does what meeting the chain
does, and stands at the longer chain.  Without a chain the method has to be
an entry. -/
theorem follows_readLine_of_not_mem (hwidth : 0 < options.indentWidth) (hplain : label.Plain)
    (hstands : Stands entries chain reading) (hnew : label ∉ chain)
    (hentry : chain = [] → label ∈ entries) (number : Nat) :
    Follows entries (label :: chain) [label :: chain] reading
      (reading.readLine options (lineOf options.indentWidth (label :: chain)) number) := by
  rw [readLine_of_not_mem hwidth hplain hnew]
  have hlength := hstands.length_cut
  have hmet := hstands.cut.met_readLabel hlength hnew hentry
  have hknown := idOf?_readLabel { reading with ancestors := reading.ancestors.take chain.length }
    label
  refine ⟨hmet, (hstands.meetAll hmet ?_).cons (Registry.idOf?_marked.trans hknown) ?_⟩
  · exact List.take_left' hlength
  · simp only [Reading.readLabel]
    rw [List.getElem?_append_right hlength.le, hlength, Nat.sub_self]
    rfl

theorem ancestors_readMarker (reading : Reading) (cycles : CyclePolicy) (label : Label) :
    (reading.readMarker cycles label).ancestors = reading.ancestors := by
  unfold readMarker
  split <;> rfl

theorem readMarker_drop (reading : Reading) (label : Label) :
    reading.readMarker .drop label = reading := by
  unfold readMarker
  split
  case h_1 heq => cases heq
  case h_2 => rfl

theorem readMarker_mark {parent : NodeId} (hparent : reading.ancestors.getLast? = some parent) :
    reading.readMarker .mark label =
      (reading.register label false).2.link ⟨(reading.register label false).1, parent, true⟩ := by
  simp only [readMarker, hparent]

/-- With just a chain on the stack, marking a call from one of its methods
does to the draft what meeting the closed chain does. -/
theorem Stands.met_readMarker (hstands : Stands entries chain reading)
    (hlength : reading.ancestors.length = chain.length) (hmem : label ∈ chain) :
    (reading.readMarker .mark label).draft.marked entries =
      (reading.draft.marked entries).meetAll entries [label :: chain] := by
  obtain ⟨method, below, rfl⟩ := List.exists_cons_of_ne_nil (List.ne_nil_of_mem hmem)
  obtain ⟨target, hparent, hknown⟩ := hstands.exists_parent hlength
  have hflag : false = true → entries.contains label = true := by simp
  rw [readMarker_mark hparent, Draft.meetAll_cons, Draft.meetAll_nil,
    hstands.tidy.meet_known hknown, closesCycle_eq_true_iff.2 hmem,
    Draft.marked_register reading.draft hflag, ← Draft.marked_link]
  rfl

/-- **The line of a recursive call.**  Under marking reading it does what
meeting the chain does; it leaves the reading where it stood. -/
theorem follows_readLine_of_mem (hwidth : 0 < options.indentWidth) (hplain : label.Plain)
    (hstands : Stands entries chain reading) (hmem : label ∈ chain) (number : Nat) :
    Follows entries chain ([label :: chain].filter options.cycles.keeps) reading
      (reading.readLine options (lineOf options.indentWidth (label :: chain)) number) := by
  rw [readLine_of_mem hwidth hplain hmem, List.filter_singleton, CyclePolicy.keeps_of_mem hmem]
  have hcut := hstands.cut.tell [.recursiveMarker number label.text]
  cases hcycles : options.cycles with
  | drop =>
      rw [readMarker_drop]
      exact ⟨rfl, hcut⟩
  | mark =>
      have hmet := hcut.met_readMarker hstands.length_cut hmem
      exact ⟨hmet, hcut.meetAll hmet (by rw [ancestors_readMarker])⟩

/-- The lines of chains, read after one another. -/
def readChains (options : HierarchyOptions) (reading : Reading) (chains : List (List Label))
    (number : Nat) : Reading :=
  reading.readLines options (chains.map (lineOf options.indentWidth)) number

theorem readChains_cons (options : HierarchyOptions) (reading : Reading) (chain : List Label)
    (chains : List (List Label)) (number : Nat) :
    reading.readChains options (chain :: chains) number =
      (reading.readLine options (lineOf options.indentWidth chain) number).readChains options
        chains (number + 1) := rfl

theorem readChains_append (options : HierarchyOptions) (reading : Reading)
    (chains others : List (List Label)) (number : Nat) :
    reading.readChains options (chains ++ others) number =
      (reading.readChains options chains number).readChains options others
        (number + chains.length) := by
  rw [readChains, List.map_append, readLines_append, List.length_map]
  rfl

/-- Items that each leave the reading where it stood, one after the other. -/
theorem follows_readChains_flatMap {α : Type} {items : List α} {gather : α → List (List Label)}
    (hstep : ∀ item ∈ items, ∀ reading number, Stands entries chain reading →
      Follows entries chain ((gather item).filter options.cycles.keeps) reading
        (reading.readChains options (gather item) number))
    (hstands : Stands entries chain reading) (number : Nat) :
    Follows entries chain ((items.flatMap gather).filter options.cycles.keeps) reading
      (reading.readChains options (items.flatMap gather) number) := by
  induction items generalizing reading number with
  | nil => exact ⟨rfl, hstands⟩
  | cons item items ih =>
      have hfirst := hstep item List.mem_cons_self reading number hstands
      have hrest := ih (fun other hother => hstep other (List.mem_cons_of_mem _ hother))
        hfirst.stands (number + (gather item).length)
      rw [List.flatMap_cons, List.filter_append, readChains_append]
      exact hfirst.trans hrest

variable {table : CallTable}

/-- **Reading a block.**  From the line of a method on, reading the lines
under it does what meeting the chains under it does, and comes back to where
it stood.  The induction is along the chains that are followed; the callers
of one method come in order. -/
theorem follows_readChains_chainsUnder (scope : Scope) (limit : Option Nat)
    (hwidth : 0 < options.indentWidth)
    (hplain : ∀ method, ∀ caller ∈ table.callers method, caller.Plain) (below : List Label)
    (method : Label) (reading : Reading) (number : Nat)
    (hstands : Stands entries (method :: below) reading) :
    Follows entries (method :: below)
      ((table.chainsUnder scope limit below method).filter options.cycles.keeps) reading
      (reading.readChains options (table.chainsUnder scope limit below method) number) := by
  induction below, method using CallTable.chainsUnder_induction table scope
    generalizing reading number with
  | step below method ih =>
      by_cases hroom : ∀ most ∈ limit, below.length < most
      · rw [CallTable.chainsUnder_of_lt hroom]
        refine follows_readChains_flatMap ?_ hstands number
        intro caller hcaller reading number hstands
        have haccepts := CallTable.mem_accepted.1 hcaller
        have hcallerPlain := hplain method caller haccepts.1
        by_cases hmem : caller ∈ method :: below
        · rw [if_pos hmem]
          exact follows_readLine_of_mem hwidth hcallerPlain hstands hmem number
        · rw [if_neg hmem, readChains_cons,
            List.filter_cons_of_pos (CyclePolicy.keeps_of_not_mem hmem)]
          have hline := follows_readLine_of_not_mem hwidth hcallerPlain hstands hmem
            (by simp) number
          have hblock := ih caller haccepts hmem _ (number + 1) hline.stands
          exact (hline.trans hblock).tail
      · rw [CallTable.chainsUnder_of_not_lt hroom]
        exact ⟨rfl, hstands⟩

/-- Reading a whole hierarchy does what meeting all chains of the itinerary
does. -/
theorem follows_readChains_itinerary (scope : Scope) (limit : Option Nat)
    (hwidth : 0 < options.indentWidth)
    (hplain : ∀ method, ∀ caller ∈ table.callers method, caller.Plain)
    (hentries : ∀ entry ∈ entries, entry.Plain) (hstands : Stands entries [] reading)
    (number : Nat) :
    Follows entries [] ((table.itinerary scope limit entries).filter options.cycles.keeps) reading
      (reading.readChains options (table.itinerary scope limit entries) number) := by
  unfold CallTable.itinerary
  refine follows_readChains_flatMap ?_ hstands number
  intro entry hentry reading number hstands
  have hline := follows_readLine_of_not_mem hwidth (hentries entry hentry) hstands
    List.not_mem_nil (fun _ => hentry) number
  rw [readChains_cons,
    List.filter_cons_of_pos (CyclePolicy.keeps_of_not_mem List.not_mem_nil)]
  have hblock := follows_readChains_chainsUnder scope limit hwidth hplain
    [] entry _ (number + 1) hline.stands
  exact (hline.trans hblock).tail

/-- In the end every entry is marked: its own line has done it. -/
theorem marks_readChains_itinerary (table : CallTable) (scope : Scope) (limit : Option Nat)
    (hwidth : 0 < options.indentWidth) (hentries : ∀ entry ∈ entries, entry.Plain)
    (reading : Reading) (number : Nat) {entry : Label} (hentry : entry ∈ entries) :
    (reading.readChains options (table.itinerary scope limit entries)
      number).draft.registry.Marks entry := by
  have hmem : [entry] ∈ table.itinerary scope limit entries :=
    List.mem_flatMap.2 ⟨entry, hentry, List.mem_cons_self⟩
  obtain ⟨before, after, hsplit⟩ := List.append_of_mem hmem
  rw [hsplit, readChains_append, readChains_cons]
  refine readLines_induction (motive := fun registry => registry.Marks entry)
    (fun _ label flag h => h.register label flag) _ _ ?_
  rw [readLine_of_not_mem hwidth (hentries entry hentry) List.not_mem_nil]
  exact Registry.marks_register_self

end Reading

theorem stands_start (entries : List Label) (colors : ColorSource) :
    Reading.Stands entries [] (Reading.start colors) where
  tidy := Draft.tidy_fresh entries colors
  ancestors := rfl

/-- Every line of the itinerary has a plain label. -/
theorem plain_of_mem_itinerary {table : CallTable} {scope : Scope} {limit : Option Nat}
    {entries chain : List Label}
    (hplain : ∀ method, ∀ caller ∈ table.callers method, caller.Plain)
    (hentries : ∀ entry ∈ entries, entry.Plain)
    (hmem : chain ∈ table.itinerary scope limit entries) :
    ∃ label below, chain = label :: below ∧ label.Plain := by
  cases (CallTable.mem_itinerary_iff.1 hmem).1 with
  | entry hentry => exact ⟨_, _, rfl, hentries _ hentry⟩
  | call _ hcall => exact ⟨_, _, rfl, hplain _ _ hcall.1⟩

/-- **Reading gives the draft of the exploration back.** -/
theorem draft_read_write (table : CallTable) (options : ExploreOptions) (entries : List Label)
    {width : Nat} (hwidth : 0 < width)
    (hplain : ∀ method, ∀ caller ∈ table.callers method, caller.Plain)
    (hentries : ∀ entry ∈ entries, entry.Plain) :
    (read ⟨width, options.cycles, options.colors⟩
      (write width (table.itinerary options.scope options.maxDepth entries))).draft =
      table.gathered options entries := by
  have hread : read ⟨width, options.cycles, options.colors⟩
      (write width (table.itinerary options.scope options.maxDepth entries)) =
      (Reading.start options.colors).readChains ⟨width, options.cycles, options.colors⟩
        (table.itinerary options.scope options.maxDepth entries) 1 := by
    rw [read, splitLines_write fun _ hmem => plain_of_mem_itinerary hplain hentries hmem]
    rfl
  have hlevels : 0 < (HierarchyOptions.mk width options.cycles options.colors).indentWidth := hwidth
  have hfollows := Reading.follows_readChains_itinerary options.scope options.maxDepth hlevels
    hplain hentries (stands_start entries options.colors) 1
  have hmarks := fun entry (hentry : entry ∈ entries) =>
    Reading.marks_readChains_itinerary table options.scope options.maxDepth hlevels hentries
      (Reading.start options.colors) 1 hentry
  rw [hread]
  generalize (Reading.start options.colors).readChains _ _ 1 = after at hfollows hmarks ⊢
  have hself : after.draft.marked entries = after.draft := by
    have hnodup : after.draft.registry.labels.Nodup := by
      simpa [Draft.marked] using hfollows.stands.tidy.orderly.labels_nodup
    rw [Draft.marked, Registry.marked_eq_self_of_marks hnodup hmarks]
  rw [← hself, hfollows.met]
  rfl

section Explore

variable {σ : Type} {resolver : Resolver σ} {table : CallTable}

/-- **The two ways to a graph agree.**  Write the itinerary of an exploration
as an indented hierarchy, in levels of any positive width.  With the same
cycle policy and the same colours, reading it and finishing the graph gives
the graph of the exploration itself, pruned or not. -/
theorem graph_write_eq_explore (hreads : resolver.Reads table) (options : ExploreOptions)
    (entries : List Label) {session : Session σ} (hquiet : session.cancelled = false)
    (hplain : ∀ method, ∀ caller ∈ table.callers method, caller.Plain)
    (hentries : ∀ entry ∈ entries, entry.Plain) {width : Nat} (hwidth : 0 < width) :
    ∃ draft, (explore resolver options entries session).1 = .ok draft ∧
      ∀ pruned, graph ⟨width, options.cycles, options.colors⟩
        (write width (table.itinerary options.scope options.maxDepth entries)) pruned =
          draft.toGraph pruned := by
  refine ⟨table.gathered options entries, (explore_of_reads hreads options entries hquiet).1, ?_⟩
  intro pruned
  rw [graph, draft_read_write table options entries hwidth hplain hentries]

/-- Two methods that call each other, both entries. -/
def mutualMap : CallMap where
  callers := [(⟨"a"⟩, [⟨"b"⟩]), (⟨"b"⟩, [⟨"a"⟩])]
  origins := []

/-- Reading meets `b` as a caller before it comes to its line as an entry,
and the graphs are the same all the same. -/
theorem graph_write_eq_explore_mutualMap :
    (mutualMap.resolver fun _ => false).Reads mutualMap.table ∧
      (Session.start 0 false).cancelled = false ∧
      (∀ method, ∀ caller ∈ mutualMap.table.callers method, caller.Plain) ∧
      (∀ entry ∈ [(⟨"a"⟩ : Label), ⟨"b"⟩], entry.Plain) ∧ 0 < 2 ∧
      ∃ draft, (explore (mutualMap.resolver fun _ => false)
          ⟨.all, .mark, none, .ofWords (.scripted #[])⟩ [⟨"a"⟩, ⟨"b"⟩]
          (Session.start 0 false)).1 = .ok draft ∧
        graph ⟨2, .mark, .ofWords (.scripted #[])⟩
          (write 2 (mutualMap.table.itinerary .all none [⟨"a"⟩, ⟨"b"⟩])) true =
            draft.toGraph true := by
  have hreads : (mutualMap.resolver fun _ => false).Reads mutualMap.table :=
    mutualMap.reads_table fun _ => rfl
  have hboth : ∀ label ∈ [(⟨"a"⟩ : Label), ⟨"b"⟩], label.Plain := by
    intro label hlabel
    obtain rfl | rfl : label = ⟨"a"⟩ ∨ label = ⟨"b"⟩ := by simpa using hlabel
    · exact plain_singleton (c := 'a') (by decide)
    · exact plain_singleton (c := 'b') (by decide)
  have hplain : ∀ method, ∀ caller ∈ mutualMap.table.callers method, caller.Plain := by
    intro method caller hcaller
    have hlisted : caller ∈ [(⟨"b"⟩ : Label), ⟨"a"⟩] := CallMap.mem_callersOf hcaller
    exact hboth caller (by simpa [or_comm] using hlisted)
  have hquiet : (Session.start 0 false).cancelled = false := rfl
  have hwidth : 0 < 2 := by decide
  obtain ⟨draft, hrun, hgraph⟩ := graph_write_eq_explore hreads
    ⟨.all, .mark, none, .ofWords (.scripted #[])⟩ [⟨"a"⟩, ⟨"b"⟩] hquiet hplain hboth hwidth
  exact ⟨hreads, hquiet, hplain, hboth, hwidth, draft, hrun, hgraph true⟩

end Explore

end Hierarchy

end CallerGraph
