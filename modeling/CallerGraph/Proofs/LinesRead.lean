import CallerGraph.Proofs.LineLevels
import CallerGraph.Proofs.RegistryHistory
import CallerGraph.Proofs.Unpruned

/-!
# What a text means

A text is read line by line with a stack of the lines that the next one can
stand under.  `Reading.Holds` says what a reading has after some lines, without
its history: the methods of the lines, each once, marked where a label stood at
level 0; on the stack the most recent label of every level that there is room
for; and a call for every line that stands under another one.

Every line keeps this, whatever its indentation, and `graph_of_lines` reads the
graph of a text off its lines.
-/

namespace CallerGraph

/-- A label is marked when it was before or is registered as an entry. -/
theorem Registry.marks_register_iff {registry : Registry} {label other : Label} {entry : Bool} :
    (registry.register label entry).2.Marks other ↔
      registry.Marks other ∨ entry = true ∧ label = other := by
  unfold Marks
  by_cases hother : other = label
  · subst hother
    rw [find?_register, if_pos rfl]
    simp only [Option.some.injEq, exists_eq_left', isEntry_register, Bool.or_eq_true,
      Option.any_eq_true, and_true]
  · rw [find?_register, if_neg hother]
    simp [Ne.symm hother]

/-- In a larger draft a known label has the identifier that it had. -/
theorem Draft.Keeps.idOf?_iff {draft later : Draft} (h : draft.Keeps later) {label : Label}
    (hknown : label ∈ draft.registry.labels) {id : NodeId} :
    later.registry.idOf? label = some id ↔ draft.registry.idOf? label = some id := by
  obtain ⟨known, hid⟩ := Registry.exists_idOf?_iff.2 hknown
  rw [h.idOf? hid, hid]

namespace CallSet

variable {calls : List Call} {source target : NodeId}

/-- A plain call stays whenever it comes. -/
theorem settled_false_iff :
    Settled calls ⟨source, target, false⟩ ↔ ⟨source, target, false⟩ ∈ calls := by
  constructor
  · rintro ⟨-, hflag⟩
    have hnot : ¬ ∀ added ∈ calls, added.ends = (source, target) → added.recursive = true :=
      fun hall => Bool.false_ne_true (hflag.2 hall)
    push Not at hnot
    obtain ⟨⟨_, _, flag⟩, hadded, hends, hplain⟩ := hnot
    obtain ⟨rfl, rfl⟩ := Prod.mk.inj hends
    exact Bool.eq_false_of_not_eq_true hplain ▸ hadded
  · intro hmem
    refine ⟨⟨_, hmem, rfl⟩, iff_of_false Bool.false_ne_true fun hall => ?_⟩
    exact Bool.false_ne_true (hall _ hmem rfl)

/-- A recursive call stays when no plain one comes. -/
theorem settled_true_iff :
    Settled calls ⟨source, target, true⟩ ↔
      ⟨source, target, true⟩ ∈ calls ∧ ⟨source, target, false⟩ ∉ calls := by
  constructor
  · rintro ⟨⟨added, hadded, hends⟩, hflag⟩
    have hall := hflag.1 rfl
    have hadded' : added = ⟨source, target, true⟩ := Call.eq_of_ends hends (hall added hadded hends)
    exact ⟨hadded' ▸ hadded, fun hplain => Bool.false_ne_true (hall _ hplain rfl)⟩
  · rintro ⟨hmem, hplain⟩
    refine ⟨⟨_, hmem, rfl⟩, iff_of_true rfl fun added hadded hends => ?_⟩
    by_contra hflag
    have hadded' : added = ⟨source, target, false⟩ :=
      Call.eq_of_ends hends (Bool.eq_false_of_not_eq_true hflag)
    exact hplain (hadded' ▸ hadded)

end CallSet

namespace Hierarchy

namespace Reading

variable {cycles : CyclePolicy} {reading : Reading} {seen : List Line} {line : Line}
  {level number : Nat}

/-- Reads a line at its level. -/
def follow (cycles : CyclePolicy) (reading : Reading) (line : Line) (number : Nat) : Reading :=
  let cut := { reading with ancestors := reading.ancestors.take line.level }
  if line.isMarker then
    (cut.tell [.recursiveMarker number line.label.text]).readMarker cycles line.label
  else cut.readLabel line.label

/-- Of a text nothing counts but the line that it is, given the room that the
stack leaves. -/
theorem readLine_eq_follow (options : HierarchyOptions) (reading : Reading) (text : List Char)
    (number : Nat) :
    reading.readLine options text number =
      match Line.ofText? options.indentWidth reading.ancestors.length text with
      | some line => reading.follow options.cycles line number
      | none => reading := by
  by_cases hblank : Text.trimChars text = []
  · simp [readLine, Line.ofText?, hblank]
  · cases hmarked : markedLabel? (Text.trimChars text) with
    | some label => simp [readLine, Line.ofText?, hblank, hmarked, follow, Reading.level]
    | none => simp [readLine, Line.ofText?, hblank, hmarked, follow, Reading.level]

/-- The line that the next one stands under at a level. -/
def above? (reading : Reading) (level : Nat) : Option NodeId :=
  (reading.ancestors.take level).getLast?

theorem above?_zero (reading : Reading) : reading.above? 0 = none := rfl

theorem above?_succ (hroom : level < reading.ancestors.length) :
    reading.above? (level + 1) = reading.ancestors[level]? := by
  rw [above?, List.getLast?_take, if_neg level.succ_ne_zero, Nat.add_sub_cancel,
    List.getElem?_eq_getElem hroom, Option.some_or]

theorem above?_ne_none (hpos : 0 < level) (hroom : level ≤ reading.ancestors.length) :
    reading.above? level ≠ none := by
  obtain ⟨below, rfl⟩ := Nat.exists_eq_succ_of_ne_zero hpos.ne'
  rw [above?_succ hroom, List.getElem?_eq_getElem hroom]
  exact nofun

/-- Registers a method and links it to the one above, if there is one. -/
def attach (draft : Draft) (label : Label) (entry recursive : Bool) (above : Option NodeId) :
    Draft :=
  let (id, known) := draft.register label entry
  match above with
  | some target => known.link ⟨id, target, recursive⟩
  | none => known

/-- **What a line does to the draft.**  It attaches its method, if it has one,
as an entry if it is a label at level 0. -/
theorem draft_follow (hroom : line.level ≤ reading.ancestors.length) :
    (reading.follow cycles line number).draft =
      (line.method? cycles).elim reading.draft fun label =>
        attach reading.draft label (line.holdsAt 0) line.isMarker (reading.above? line.level) := by
  have habove : (reading.ancestors.take line.level).getLast? = reading.above? line.level := rfl
  cases hmarker : line.isMarker with
  | false =>
      have hentry : (reading.ancestors.take line.level).isEmpty = line.holdsAt 0 := by
        rw [Bool.eq_iff_iff, List.isEmpty_iff, List.take_eq_nil_iff, Line.holdsAt_iff]
        constructor
        · rintro (hzero | hnil)
          · exact ⟨hmarker, hzero⟩
          · rw [hnil] at hroom
            exact ⟨hmarker, Nat.le_zero.1 hroom⟩
        · exact fun h => Or.inl h.2
      simp only [follow, hmarker, Bool.false_eq_true, if_false, Line.method?_of_label hmarker]
      simp only [readLabel, hentry, habove]
      cases reading.above? line.level <;> rfl
  | true =>
      simp only [follow, hmarker, if_true, readMarker, Reading.tell, habove]
      by_cases hpos : 0 < line.level
      · obtain ⟨target, htarget⟩ := Option.ne_none_iff_exists'.1 (above?_ne_none hpos hroom)
        have hentry : line.holdsAt 0 = false := by simp [Line.holdsAt, hmarker]
        rw [Line.method?_of_marker hmarker hpos, htarget, hentry]
        cases cycles with
        | drop => rfl
        | mark => rfl
      · have hzero : line.level = 0 := by omega
        rw [hzero, above?_zero]
        simp [Line.method?, hmarker, hzero]

@[simp] theorem registry_attach (draft : Draft) (label : Label) (entry recursive : Bool)
    (above : Option NodeId) :
    (attach draft label entry recursive above).registry =
      (draft.registry.register label entry).2 := by
  cases above <;> rfl

theorem keeps_attach (draft : Draft) (label : Label) (entry recursive : Bool)
    (above : Option NodeId) : draft.Keeps (attach draft label entry recursive above) := by
  cases above with
  | none => exact Draft.keeps_register draft label entry
  | some target => exact (Draft.keeps_register draft label entry).trans (Draft.keeps_link _ _)

/-- A line only adds to the draft. -/
theorem keeps_follow (hroom : line.level ≤ reading.ancestors.length) (number : Nat) :
    reading.draft.Keeps (reading.follow cycles line number).draft := by
  rw [draft_follow hroom]
  cases line.method? cycles with
  | none => exact .refl _
  | some label => exact keeps_attach _ _ _ _ _

/-- A marker leaves the stack cut to its level, and a label puts its method on
top of it. -/
theorem ancestors_follow (cycles : CyclePolicy) (reading : Reading) (line : Line) (number : Nat) :
    (reading.follow cycles line number).ancestors =
      reading.ancestors.take line.level ++
        if line.isMarker then []
        else ((reading.follow cycles line number).draft.registry.idOf? line.label).toList := by
  cases hmarker : line.isMarker with
  | true => simp [follow, hmarker, ancestors_readMarker, Reading.tell]
  | false =>
      simp only [follow, hmarker, Bool.false_eq_true, if_false, idOf?_readLabel,
        Option.toList_some]
      rfl

/-- The calls that lines make between the methods of a registry: one for every
line that has a method and stands under another line. -/
def Links (cycles : CyclePolicy) (lines : List Line) (registry : Registry) (call : Call) : Prop :=
  ∃ line parent, StandsUnder lines line parent ∧ line.method? cycles = some line.label ∧
    line.isMarker = call.recursive ∧ registry.idOf? line.label = some call.source ∧
    registry.idOf? parent.label = some call.target

/-- What a reading has after some lines. -/
structure Holds (cycles : CyclePolicy) (seen : List Line) (reading : Reading) : Prop where
  labels : reading.draft.registry.labels = methods cycles seen
  marks : ∀ {label}, reading.draft.registry.Marks label ↔
    ∃ line ∈ seen, line.holdsAt 0 = true ∧ line.label = label
  /-- On the stack is the most recent label of every level. -/
  ancestors : ∀ {level id}, reading.ancestors[level]? = some id →
    ∃ line, latest? seen level = some line ∧
      reading.draft.registry.idOf? line.label = some id
  calls : ∃ links, reading.draft.calls = .ofList links ∧
    ∀ call, call ∈ links ↔ Links cycles seen reading.draft.registry call

theorem holds_start (cycles : CyclePolicy) (colors : ColorSource) :
    Holds cycles [] (start colors) where
  labels := rfl
  marks := by
    intro label
    simp [Registry.Marks, start, Draft.fresh]
  ancestors h := by cases h
  calls := by
    refine ⟨[], rfl, fun call => ⟨fun h => absurd h List.not_mem_nil, ?_⟩⟩
    rintro ⟨line, parent, hstands, -⟩
    exact absurd hstands.mem.1 List.not_mem_nil

/-- The lines that there are have known methods. -/
theorem Holds.mem_labels (h : Holds cycles seen reading) (hmem : line ∈ seen)
    (hmethod : line.method? cycles = some line.label) :
    line.label ∈ reading.draft.registry.labels := by
  rw [h.labels]
  exact mem_methods.2 ⟨line, hmem, hmethod⟩

/-- What a line stands under is what the stack says, now and later. -/
theorem Holds.above?_eq (h : Holds cycles seen reading)
    (hroom : level ≤ reading.ancestors.length) {later : Draft}
    (hkeeps : reading.draft.Keeps later) :
    reading.above? level =
      (parent? seen level).bind fun parent => later.registry.idOf? parent.label := by
  cases level with
  | zero => rfl
  | succ below =>
      have hid := List.getElem?_eq_getElem (l := reading.ancestors) (i := below) hroom
      obtain ⟨line, hlatest, hlabel⟩ := h.ancestors hid
      rw [above?_succ hroom, hid, parent?, hlatest, Option.bind_some, hkeeps.idOf? hlabel]

/-- Calls between known methods stay the same in a larger draft. -/
theorem Holds.links_iff (h : Holds cycles seen reading) {later : Draft}
    (hkeeps : reading.draft.Keeps later) {call : Call} :
    Links cycles seen later.registry call ↔ Links cycles seen reading.draft.registry call := by
  unfold Links
  refine exists_congr fun line => exists_congr fun parent => and_congr_right fun hstands => ?_
  obtain ⟨hmem, hparent, hlabel, -⟩ := hstands.mem
  refine and_congr_right fun hmethod => and_congr_right fun _ => ?_
  rw [hkeeps.idOf?_iff (h.mem_labels hmem hmethod),
    hkeeps.idOf?_iff (h.mem_labels hparent (Line.method?_of_label hlabel))]

/-- The calls of one more line, if it has a method: those that there were, and
one to what it stands under. -/
theorem links_concat {registry : Registry} {call : Call}
    (hmethod : line.method? cycles = some line.label) :
    Links cycles (seen ++ [line]) registry call ↔
      Links cycles seen registry call ∨
        line.isMarker = call.recursive ∧ registry.idOf? line.label = some call.source ∧
          ((parent? seen line.level).bind fun parent => registry.idOf? parent.label) =
            some call.target := by
  unfold Links
  constructor
  · rintro ⟨other, parent, hstands, hother, hflag, hsource, htarget⟩
    rcases standsUnder_concat.1 hstands with hold | ⟨rfl, hparent⟩
    · exact Or.inl ⟨other, parent, hold, hother, hflag, hsource, htarget⟩
    · refine Or.inr ⟨hflag, hsource, ?_⟩
      rw [hparent, Option.bind_some, htarget]
  · rintro (⟨other, parent, hold, hrest⟩ | ⟨hflag, hsource, htarget⟩)
    · exact ⟨other, parent, standsUnder_concat.2 (Or.inl hold), hrest⟩
    · obtain ⟨parent, hparent, htarget⟩ := Option.bind_eq_some_iff.1 htarget
      exact ⟨line, parent, standsUnder_concat.2 (Or.inr ⟨rfl, hparent⟩), hmethod, hflag, hsource,
        htarget⟩

/-- A line without a method makes no call. -/
theorem links_concat_of_none {registry : Registry} {call : Call}
    (hnone : line.method? cycles = none) :
    Links cycles (seen ++ [line]) registry call ↔ Links cycles seen registry call := by
  unfold Links
  refine exists_congr fun other => exists_congr fun parent => ?_
  constructor
  · rintro ⟨hstands, hother, hrest⟩
    rcases standsUnder_concat.1 hstands with hold | ⟨rfl, -⟩
    · exact ⟨hold, hother, hrest⟩
    · rw [hnone] at hother
      cases hother
  · rintro ⟨hold, hrest⟩
    exact ⟨standsUnder_concat.2 (Or.inl hold), hrest⟩

theorem methods_concat (cycles : CyclePolicy) (seen : List Line) (line : Line) :
    methods cycles (seen ++ [line]) =
      (seen.filterMap (Line.method? cycles) ++ (line.method? cycles).toList).eraseDups := by
  rw [methods, List.filterMap_append]
  cases hmethod : line.method? cycles with
  | none => simp [hmethod]
  | some label => simp [hmethod]

theorem Holds.labels_follow (h : Holds cycles seen reading)
    (hroom : line.level ≤ reading.ancestors.length) (number : Nat) :
    (reading.follow cycles line number).draft.registry.labels =
      methods cycles (seen ++ [line]) := by
  rw [draft_follow hroom, methods_concat]
  cases line.method? cycles with
  | none =>
      rw [Option.toList_none, List.append_nil]
      exact h.labels
  | some label =>
      simp only [Option.elim_some, registry_attach]
      exact Registry.labels_register_of_eq h.labels label _

theorem Holds.marks_follow (h : Holds cycles seen reading)
    (hroom : line.level ≤ reading.ancestors.length) (number : Nat) {label : Label} :
    (reading.follow cycles line number).draft.registry.Marks label ↔
      ∃ other ∈ seen ++ [line], other.holdsAt 0 = true ∧ other.label = label := by
  have hconcat : (∃ other ∈ seen ++ [line], other.holdsAt 0 = true ∧ other.label = label) ↔
      reading.draft.registry.Marks label ∨ line.holdsAt 0 = true ∧ line.label = label := by
    rw [h.marks]
    simp only [List.mem_append, List.mem_singleton]
    grind
  rw [hconcat, draft_follow hroom]
  cases hmethod : line.method? cycles with
  | none =>
      have hmarker : line.holdsAt 0 = false := by
        cases hflag : line.isMarker with
        | true => simp [Line.holdsAt, hflag]
        | false =>
            rw [Line.method?_of_label hflag] at hmethod
            cases hmethod
      simp [hmarker]
  | some known =>
      obtain rfl := Line.eq_label_of_method? hmethod
      simp only [Option.elim_some, registry_attach]
      exact Registry.marks_register_iff

theorem Holds.ancestors_follow (h : Holds cycles seen reading)
    (hroom : line.level ≤ reading.ancestors.length) (number : Nat) {level : Nat} {id : NodeId}
    (hid : (reading.follow cycles line number).ancestors[level]? = some id) :
    ∃ other, latest? (seen ++ [line]) level = some other ∧
      (reading.follow cycles line number).draft.registry.idOf? other.label = some id := by
  rw [Reading.ancestors_follow] at hid
  have hlength : (reading.ancestors.take line.level).length = line.level := by
    rw [List.length_take, Nat.min_eq_left hroom]
  by_cases hbelow : level < line.level
  -- The most recent labels further up are still the same.
  · rw [List.getElem?_append_left (by omega), List.getElem?_take, if_pos hbelow] at hid
    obtain ⟨other, hlatest, hlabel⟩ := h.ancestors hid
    have hother : ¬ line.holdsAt level = true := by
      rw [Line.holdsAt_iff]
      omega
    exact ⟨other, by rw [latest?_concat, if_neg hother, hlatest],
      (keeps_follow hroom number).idOf? hlabel⟩
  · rw [List.getElem?_append_right (by omega), hlength] at hid
    cases hmarker : line.isMarker with
    | true => simp [hmarker] at hid
    | false =>
        rw [hmarker, if_neg Bool.false_ne_true] at hid
        have hmem := Option.mem_toList.1 (List.mem_of_getElem? hid)
        have hlast : level - line.level = 0 := by
          have hlt := (List.getElem?_eq_some_iff.1 hid).1
          have hsize := Option.length_toList_le
            (o := (reading.follow cycles line number).draft.registry.idOf? line.label)
          omega
        have hholds : line.holdsAt level = true := Line.holdsAt_iff.2 ⟨hmarker, by omega⟩
        exact ⟨line, by rw [latest?_concat, if_pos hholds], hmem⟩

/-- The calls that were added so far, with one more if there is a method above. -/
theorem exists_links_attach {draft : Draft} {links : List Call}
    (h : draft.calls = .ofList links) (label : Label) (entry recursive : Bool)
    (above : Option NodeId) :
    ∃ more, (attach draft label entry recursive above).calls = .ofList more ∧
      ∀ call, call ∈ more ↔ call ∈ links ∨ recursive = call.recursive ∧
        (draft.register label entry).1 = call.source ∧ above = some call.target := by
  cases above with
  | none => exact ⟨links, h, fun call => by simp⟩
  | some target =>
      let added : Call := ⟨(draft.register label entry).1, target, recursive⟩
      refine ⟨links ++ [added], ?_, fun call => ?_⟩
      · rw [CallSet.ofList_append_singleton, ← h]
        rfl
      · obtain ⟨source, other, flag⟩ := call
        simp only [List.mem_append, List.mem_singleton, added, Call.mk.injEq, Option.some.injEq]
        grind

theorem Holds.calls_follow (h : Holds cycles seen reading)
    (hroom : line.level ≤ reading.ancestors.length) (number : Nat) :
    ∃ links, (reading.follow cycles line number).draft.calls = .ofList links ∧
      ∀ call, call ∈ links ↔
        Links cycles (seen ++ [line]) (reading.follow cycles line number).draft.registry call := by
  obtain ⟨links, hcalls, hlinks⟩ := h.calls
  have hkeeps : reading.draft.Keeps (reading.follow cycles line number).draft :=
    keeps_follow hroom number
  have habove := h.above?_eq hroom hkeeps
  rw [draft_follow hroom] at hkeeps habove ⊢
  cases hmethod : line.method? cycles with
  | none =>
      refine ⟨links, hcalls, fun call => ?_⟩
      rw [links_concat_of_none hmethod, hlinks, Option.elim_none]
  | some known =>
      obtain rfl := Line.eq_label_of_method? hmethod
      simp only [hmethod, Option.elim_some] at hkeeps habove ⊢
      obtain ⟨more, hmore, hmem⟩ := exists_links_attach hcalls line.label (line.holdsAt 0)
        line.isMarker (reading.above? line.level)
      refine ⟨more, hmore, fun call => ?_⟩
      rw [hmem, links_concat hmethod, h.links_iff hkeeps, hlinks, ← habove, registry_attach,
        Registry.idOf?_register_self, Option.some.injEq]
      rfl

/-- **One line keeps what a reading has,** at whatever level there is room for
it. -/
theorem Holds.follow (h : Holds cycles seen reading)
    (hroom : line.level ≤ reading.ancestors.length) (number : Nat) :
    Holds cycles (seen ++ [line]) (reading.follow cycles line number) where
  labels := h.labels_follow hroom number
  marks := h.marks_follow hroom number
  ancestors := h.ancestors_follow hroom number
  calls := h.calls_follow hroom number

/-- The line leaves the room on the stack that it leaves to the next one. -/
theorem length_ancestors_follow (hroom : line.level ≤ reading.ancestors.length) (number : Nat) :
    (reading.follow cycles line number).ancestors.length = line.room := by
  have hcut : (reading.ancestors.take line.level).length = line.level := by
    rw [List.length_take, Nat.min_eq_left hroom]
  cases hmarker : line.isMarker with
  | true => simp [follow, hmarker, ancestors_readMarker, Reading.tell, Line.room, hcut]
  | false =>
      simp only [follow, hmarker, Bool.false_eq_true, if_false, Line.room, readLabel,
        List.length_append, List.length_singleton, hcut]

/-- **Lines one after the other.**  The room that a reading has on its stack is
the one number that has to be carried along. -/
theorem Holds.readLines {options : HierarchyOptions} (h : Holds options.cycles seen reading)
    (texts : List (List Char)) (number : Nat) :
    Holds options.cycles
      (seen ++ linesFrom options.indentWidth reading.ancestors.length texts)
      (reading.readLines options texts number) := by
  induction texts generalizing reading seen number with
  | nil =>
      rw [linesFrom, List.append_nil]
      exact h
  | cons text texts ih =>
      rw [Reading.readLines, readLine_eq_follow, linesFrom]
      cases hline : Line.ofText? options.indentWidth reading.ancestors.length text with
      | none => exact ih h (number + 1)
      | some line =>
          have hroom := Line.level_le_of_ofText? hline
          have hrest := ih (h.follow hroom number) (number + 1)
          rwa [length_ancestors_follow hroom, List.append_assoc] at hrest

end Reading

/-- What has been read of a text are its lines. -/
theorem holds_read (options : HierarchyOptions) (text : String) :
    Reading.Holds options.cycles (lines options.indentWidth text) (read options text) :=
  (Reading.holds_start options.cycles options.colors).readLines _ 1

section

variable {cycles : CyclePolicy} {seen : List Line} {reading : Reading}
  {caller method : Label} {source target : NodeId} {recursive : Bool}

/-- The calls that lines make between two methods. -/
theorem links_iff_calls (horderly : reading.draft.registry.Orderly)
    (hcaller : reading.draft.registry.idOf? caller = some source)
    (hmethod : reading.draft.registry.idOf? method = some target) :
    Reading.Links cycles seen reading.draft.registry ⟨source, target, recursive⟩ ↔
      Calls seen caller method recursive ∧ (recursive = true → cycles = .mark) := by
  constructor
  · rintro ⟨line, parent, hstands, hline, rfl, hsource, htarget⟩
    have hname := horderly.idOf?_injective hsource hcaller
    have habove := horderly.idOf?_injective htarget hmethod
    refine ⟨⟨line, parent, hstands, rfl, hname, habove⟩, fun hmarker => ?_⟩
    by_contra hcycles
    rw [Line.method?_of_marker hmarker hstands.mem.2.2.2, if_neg hcycles] at hline
    cases hline
  · rintro ⟨⟨line, parent, hstands, rfl, rfl, rfl⟩, hmark⟩
    refine ⟨line, parent, hstands, ?_, rfl, hcaller, hmethod⟩
    cases hmarker : line.isMarker with
    | false => exact Line.method?_of_label hmarker
    | true =>
        rw [Line.method?_of_marker hmarker hstands.mem.2.2.2, if_pos (hmark hmarker)]

/-- **The calls of a reading.**  Of a label and a marker that say the same the
label counts. -/
theorem Reading.Holds.mem_calls_iff (h : Reading.Holds cycles seen reading)
    (horderly : reading.draft.registry.Orderly)
    (hcaller : reading.draft.registry.idOf? caller = some source)
    (hmethod : reading.draft.registry.idOf? method = some target) :
    (⟨source, target, false⟩ ∈ reading.draft.calls.calls ↔ Calls seen caller method false) ∧
      (⟨source, target, true⟩ ∈ reading.draft.calls.calls ↔
        cycles = .mark ∧ ¬ Calls seen caller method false ∧ Calls seen caller method true) := by
  obtain ⟨links, hcalls, hlinks⟩ := h.calls
  have hplain : ⟨source, target, false⟩ ∈ links ↔ Calls seen caller method false := by
    rw [hlinks, links_iff_calls horderly hcaller hmethod]
    simp
  have hmarked : ⟨source, target, true⟩ ∈ links ↔ Calls seen caller method true ∧
      cycles = .mark := by
    rw [hlinks, links_iff_calls horderly hcaller hmethod]
    simp
  rw [hcalls, CallSet.mem_ofList, CallSet.mem_ofList, CallSet.settled_false_iff,
    CallSet.settled_true_iff, hplain, hmarked]
  exact ⟨Iff.rfl, by tauto⟩

/-- A node that is given its role still describes its label. -/
theorem describes_placed {node : Node} {label : Label} (h : node.Describes label) (graph : Graph) :
    Node.Describes { graph.placed node with role := .root } label := by
  unfold Node.Describes at h ⊢
  rw [h]
  rfl

/-- The node at the place of a label. -/
theorem exists_placed_of_getElem? {draft : Draft} (hsound : draft.Sound) {graph : Graph}
    (hshows : graph.Shows draft) {position : Nat} {label : Label}
    (hlabel : draft.registry.labels[position]? = some label) :
    ∃ node, graph.nodes[position]? = some node ∧ node.id = .ofOrdinal (position + 1) ∧
      Node.Describes { node with role := .root } label ∧
      (node.isEntry = true ↔ draft.registry.Marks label) := by
  rw [Registry.labels, List.getElem?_map] at hlabel
  obtain ⟨⟨known, node⟩, hentry, rfl⟩ := Option.map_eq_some_iff.1 hlabel
  have hfound := (Registry.find?_eq_some_iff hsound.orderly.labels_nodup).2
    (List.mem_of_getElem? hentry)
  have hid := hsound.orderly.id_of_getElem? hentry
  refine ⟨graph.placed node, ?_, hid,
    describes_placed (hsound.orderly.described known node hfound) graph, ?_⟩
  · rw [hshows.nodes, Registry.nodes, List.map_map, List.getElem?_map, hentry]
    rfl
  · unfold Registry.Marks
    simp only [hfound, Option.some.injEq, exists_eq_left']
    rfl

/-- A call of the graph joins two methods, which have their places. -/
theorem exists_positions_of_mem {draft : Draft} (hsound : draft.Sound) {call : Call}
    (hcall : call ∈ draft.calls.calls) :
    ∃ caller method : Nat, caller < draft.registry.labels.length ∧
      method < draft.registry.labels.length ∧
      call.source = .ofOrdinal (caller + 1) ∧ call.target = .ofOrdinal (method + 1) := by
  obtain ⟨caller, method, hcaller, hmethod⟩ := hsound.linked call hcall
  obtain ⟨first, hfirst, hsource⟩ := hsound.orderly.exists_position hcaller
  obtain ⟨second, hsecond, htarget⟩ := hsound.orderly.exists_position hmethod
  exact ⟨first, second, hfirst, hsecond, hsource, htarget⟩

end

/-- **What an indented text means.**  Without pruning, whatever the text, the
width of a level and the cycle policy:

* there is a node for every different method of the lines, that is for every
  label and, under marking, for what is inside every marker further in than
  level 0; they are numbered in the order in which they first come, and each has
  the parts of its label;
* a node is an entry exactly when some line holds its label at level 0;
* calls join these nodes and no others, and there is a plain call from one to
  another exactly when some line of the first stands under a line of the second;
* there is a recursive call exactly when there is no such line but a marker that
  stands there, and calls are to be marked.

A line stands under the most recent label one level up, and it is a marker when
it has the shape of one; what is inside is trimmed. -/
theorem graph_of_lines (options : HierarchyOptions) (text : String) :
    let graph := graph options text false
    let lines := lines options.indentWidth text
    let methods := methods options.cycles lines
    (∀ content label, markedLabel? content = some label ↔
        ∃ inner, content = marker inner ∧ label = Text.trimChars inner) ∧
      graph.nodes.length = methods.length ∧
      (∀ (position : Nat) label, methods[position]? = some label →
        ∃ node, graph.nodes[position]? = some node ∧ node.id = .ofOrdinal (position + 1) ∧
          Node.Describes { node with role := .root } label ∧
          (node.isEntry = true ↔
            ∃ line ∈ lines, line.isMarker = false ∧ line.level = 0 ∧ line.label = label)) ∧
      (∀ call ∈ graph.calls, ∃ caller method : Nat, caller < methods.length ∧
        method < methods.length ∧
        call.source = .ofOrdinal (caller + 1) ∧ call.target = .ofOrdinal (method + 1)) ∧
      ∀ (i j : Nat) caller method, methods[i]? = some caller → methods[j]? = some method →
        (⟨.ofOrdinal (i + 1), .ofOrdinal (j + 1), false⟩ ∈ graph.calls ↔
          Calls lines caller method false) ∧
        (⟨.ofOrdinal (i + 1), .ofOrdinal (j + 1), true⟩ ∈ graph.calls ↔
          options.cycles = .mark ∧ ¬ Calls lines caller method false ∧
            Calls lines caller method true) := by
  intro graph lines methods
  have hread : Reading.Holds options.cycles lines (read options text) := holds_read options text
  have hsound := Draft.sound_of_grows (grows_read options text)
  have hshows : graph.Shows (read options text).draft := hsound.shows
  have hlabels : (read options text).draft.registry.labels = methods := hread.labels
  refine ⟨fun content label => markedLabel?_eq_some_iff, ?_, ?_, ?_, ?_⟩
  · rw [hshows.length_nodes, ← hlabels, Registry.labels, List.length_map, Registry.size]
  · intro position label hlabel
    rw [← hlabels] at hlabel
    obtain ⟨node, hnode, hid, hdescribes, hentry⟩ :=
      exists_placed_of_getElem? hsound hshows hlabel
    refine ⟨node, hnode, hid, hdescribes, hentry.trans (hread.marks.trans ?_)⟩
    simp only [Line.holdsAt_iff, and_assoc]
  · intro call hcall
    rw [← hlabels]
    exact exists_positions_of_mem hsound (hshows.calls ▸ hcall)
  · intro i j caller method hcaller hmethod
    rw [← hlabels, ← hsound.orderly.idOf?_eq_some_iff] at hcaller hmethod
    rw [hshows.calls]
    exact hread.mem_calls_iff hsound.orderly hcaller hmethod

/-- A cycle, marked where it closes, and a marker for a call that is there
already. -/
def markedText : String :=
  "a\n  b\n      [... Recursive call to a ...]\n  [... Recursive call to b ...]\n"

theorem graph_of_lines_markedText :
    let options : HierarchyOptions := ⟨2, .mark, .ofWords (.scripted #[])⟩
    let graph := graph options markedText false
    let methods := methods .mark (lines 2 markedText)
    methods[0]? = some ⟨"a"⟩ ∧ methods[1]? = some ⟨"b"⟩ ∧
      (∃ node, graph.nodes[0]? = some node ∧ node.isEntry = true) ∧
      ⟨⟨"node2"⟩, ⟨"node1"⟩, false⟩ ∈ graph.calls ∧
      ⟨⟨"node2"⟩, ⟨"node1"⟩, true⟩ ∉ graph.calls ∧
      ⟨⟨"node1"⟩, ⟨"node2"⟩, true⟩ ∈ graph.calls := by
  intro options graph methods
  have hlines : lines 2 markedText =
      [⟨0, false, ⟨"a"⟩⟩, ⟨1, false, ⟨"b"⟩⟩, ⟨2, true, ⟨"a"⟩⟩, ⟨1, true, ⟨"b"⟩⟩] := by
    decide +kernel
  have ha : methods[0]? = some ⟨"a"⟩ := by decide +kernel
  have hb : methods[1]? = some ⟨"b"⟩ := by decide +kernel
  obtain ⟨-, -, hnodes, -, hcalls⟩ := graph_of_lines options markedText
  obtain ⟨node, hnode, -, -, hentry⟩ := hnodes 0 ⟨"a"⟩ ha
  obtain ⟨hplain, hmarked⟩ := hcalls 1 0 ⟨"b"⟩ ⟨"a"⟩ hb ha
  obtain ⟨-, hclosing⟩ := hcalls 0 1 ⟨"a"⟩ ⟨"b"⟩ ha hb
  have hfirst : Calls (lines 2 markedText) ⟨"b"⟩ ⟨"a"⟩ false := by
    rw [hlines]
    exact ⟨⟨1, false, ⟨"b"⟩⟩, ⟨0, false, ⟨"a"⟩⟩, ⟨[_], _, rfl, rfl⟩, rfl, rfl, rfl⟩
  have hsecond : Calls (lines 2 markedText) ⟨"a"⟩ ⟨"b"⟩ true := by
    rw [hlines]
    exact ⟨⟨2, true, ⟨"a"⟩⟩, ⟨1, false, ⟨"b"⟩⟩, ⟨[_, _], _, rfl, rfl⟩, rfl, rfl, rfl⟩
  -- The only line that holds `a` is at level 0 and stands under nothing.
  have hnone : ¬ Calls (lines 2 markedText) ⟨"a"⟩ ⟨"b"⟩ false := by
    rintro ⟨line, parent, hstands, hlabel, hname, -⟩
    obtain ⟨hmem, -, -, hpos⟩ := hstands.mem
    rw [hlines] at hmem
    simp only [List.mem_cons, List.not_mem_nil, or_false] at hmem
    rcases hmem with rfl | rfl | rfl | rfl
    · exact absurd hpos (Nat.lt_irrefl 0)
    · exact absurd hname (by decide)
    · cases hlabel
    · cases hlabel
  refine ⟨ha, hb, ⟨node, hnode, hentry.2 ⟨⟨0, false, ⟨"a"⟩⟩, ?_, rfl, rfl, rfl⟩⟩,
    hplain.2 hfirst, fun hmem => (hmarked.1 hmem).2.1 hfirst,
    hclosing.2 ⟨rfl, hnone, hsecond⟩⟩
  change _ ∈ lines 2 markedText
  rw [hlines]
  exact List.mem_cons_self

end Hierarchy

end CallerGraph
