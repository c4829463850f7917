import CallerGraph.Hierarchy
import CallerGraph.Proofs.WrittenLine

/-!
# Lines and their levels

A text is a list of lines, each at a level, and nothing else of it counts.
Blank lines are left out.  A line holds a label or marks a recursive call, and
its level is the number of levels that it is indented by, as far as the line
before it leaves room: one level more than a label, and no more than a marker.
`Hierarchy.lines` reads a text so, with a single number to carry from one line
to the next.

A line stands under the most recent label one level up.  `StandsUnder` says so
of a list of lines, without the stack that a reading keeps.
-/

namespace CallerGraph

namespace Hierarchy

/-- A line that is not blank, with the label that it holds or, if it is a
marker, the one inside. -/
structure Line where
  level : Nat
  isMarker : Bool
  label : Label
deriving DecidableEq, Repr

namespace Line

/-- The deepest level that the line leaves to the next one. -/
def room (line : Line) : Nat :=
  if line.isMarker then line.level else line.level + 1

/-- The line of a text, at a level that there is room for. -/
def ofText? (width room : Nat) (text : List Char) : Option Line :=
  let content := Text.trimChars text
  let level := min (Text.indentation text / max width 1) room
  if content = [] then none
  else
    match markedLabel? content with
    | some label => some ⟨level, true, ⟨String.ofList label⟩⟩
    | none => some ⟨level, false, ⟨String.ofList content⟩⟩

/-- Does the line hold a label, at the level? -/
def holdsAt (level : Nat) (line : Line) : Bool :=
  !line.isMarker && line.level == level

/-- The method of a line.  A marker has one if recursive calls are marked and
there is something that it can stand under. -/
def method? (cycles : CyclePolicy) (line : Line) : Option Label :=
  if line.isMarker && (cycles == .drop || line.level == 0) then none else some line.label

theorem level_le_of_ofText? {width room : Nat} {text : List Char} {line : Line}
    (h : ofText? width room text = some line) : line.level ≤ room := by
  unfold ofText? at h
  by_cases hblank : Text.trimChars text = []
  · simp [hblank] at h
  · cases hmarked : markedLabel? (Text.trimChars text) with
    | some label =>
        simp only [hblank, if_false, hmarked, Option.some.injEq] at h
        exact h ▸ Nat.min_le_right _ _
    | none =>
        simp only [hblank, if_false, hmarked, Option.some.injEq] at h
        exact h ▸ Nat.min_le_right _ _

variable {cycles : CyclePolicy} {line : Line} {level : Nat}

theorem holdsAt_iff : line.holdsAt level = true ↔ line.isMarker = false ∧ line.level = level := by
  simp [holdsAt]

theorem method?_of_label (hlabel : line.isMarker = false) :
    line.method? cycles = some line.label := by
  simp [method?, hlabel]

theorem method?_of_marker (hmarker : line.isMarker = true) (hlevel : 0 < line.level) :
    line.method? cycles = if cycles = .mark then some line.label else none := by
  have hne : line.level ≠ 0 := by omega
  cases cycles <;> simp [method?, hmarker, hne]

/-- A method of a line is its label. -/
theorem eq_label_of_method? {label : Label} (h : line.method? cycles = some label) :
    label = line.label := by
  unfold method? at h
  split at h
  · cases h
  · exact (Option.some.inj h).symm

end Line

/-- The lines of texts, as long as the first of them has room for some
levels. -/
def linesFrom (width : Nat) : Nat → List (List Char) → List Line
  | _, [] => []
  | room, text :: texts =>
      match Line.ofText? width room text with
      | some line => line :: linesFrom width line.room texts
      | none => linesFrom width room texts

/-- The lines of a hierarchy.  The first has no room but at level 0. -/
def lines (width : Nat) (text : String) : List Line :=
  linesFrom width 0 (Text.splitLines text.toList)

/-- The methods of lines, each once, in the order in which they first come. -/
def methods (cycles : CyclePolicy) (lines : List Line) : List Label :=
  (lines.filterMap (Line.method? cycles)).eraseDups

/-- The most recent label of a level. -/
def latest? (earlier : List Line) (level : Nat) : Option Line :=
  (earlier.filter (Line.holdsAt level)).getLast?

/-- What a line at a level stands under: the most recent label one level up. -/
def parent? (earlier : List Line) : Nat → Option Line
  | 0 => none
  | level + 1 => latest? earlier level

/-- One of the lines stands under another one. -/
def StandsUnder (lines : List Line) (line parent : Line) : Prop :=
  ∃ earlier later, lines = earlier ++ line :: later ∧ parent? earlier line.level = some parent

/-- Some line of the caller stands under a line of the method; the line of the
caller is a marker if the call is recursive. -/
def Calls (lines : List Line) (caller method : Label) (recursive : Bool) : Prop :=
  ∃ line parent, StandsUnder lines line parent ∧ line.isMarker = recursive ∧
    line.label = caller ∧ parent.label = method

section

variable {cycles : CyclePolicy} {seen : List Line} {line parent other : Line} {level : Nat}

theorem mem_methods {label : Label} :
    label ∈ methods cycles seen ↔ ∃ line ∈ seen, line.method? cycles = some label := by
  rw [methods, List.mem_eraseDups, List.mem_filterMap]

theorem latest?_concat :
    latest? (seen ++ [line]) level =
      if line.holdsAt level = true then some line else latest? seen level := by
  rw [latest?, latest?, List.filter_append]
  by_cases hholds : line.holdsAt level = true
  · rw [if_pos hholds, List.filter_cons_of_pos hholds, List.filter_nil, List.getLast?_concat]
  · rw [if_neg hholds, List.filter_cons_of_neg hholds, List.filter_nil, List.append_nil]

/-- The latest label of a level is one of the lines, and at that level. -/
theorem mem_of_latest? (h : latest? seen level = some line) :
    line ∈ seen ∧ line.isMarker = false ∧ line.level = level := by
  have hmem := List.mem_of_getLast? h
  rw [List.mem_filter, Line.holdsAt_iff] at hmem
  exact hmem

theorem mem_of_parent? (h : parent? seen level = some parent) :
    parent ∈ seen ∧ parent.isMarker = false ∧ 0 < level := by
  cases level with
  | zero => cases h
  | succ level =>
      obtain ⟨hmem, hlabel, -⟩ := mem_of_latest? h
      exact ⟨hmem, hlabel, level.succ_pos⟩

theorem StandsUnder.mem (h : StandsUnder seen line parent) :
    line ∈ seen ∧ parent ∈ seen ∧ parent.isMarker = false ∧ 0 < line.level := by
  obtain ⟨earlier, later, rfl, hparent⟩ := h
  obtain ⟨hmem, hlabel, hlevel⟩ := mem_of_parent? hparent
  exact ⟨by simp, List.mem_append_left _ hmem, hlabel, hlevel⟩

/-- One more line stands under what is above it, and all others under what they
stood under before. -/
theorem standsUnder_concat :
    StandsUnder (seen ++ [other]) line parent ↔
      StandsUnder seen line parent ∨ line = other ∧ parent? seen other.level = some parent := by
  constructor
  · rintro ⟨earlier, later, hsplit, hparent⟩
    rcases later.eq_nil_or_concat with rfl | ⟨between, last, rfl⟩
    · obtain ⟨rfl, hline⟩ := List.append_inj' hsplit rfl
      obtain rfl := List.singleton_inj.1 hline
      exact Or.inr ⟨rfl, hparent⟩
    · rw [List.concat_eq_append, ← List.cons_append, ← List.append_assoc] at hsplit
      obtain ⟨rfl, -⟩ := List.append_inj' hsplit rfl
      exact Or.inl ⟨earlier, between, rfl, hparent⟩
  · rintro (⟨earlier, later, rfl, hparent⟩ | ⟨rfl, hparent⟩)
    · exact ⟨earlier, later ++ [other], by simp, hparent⟩
    · exact ⟨seen, [], rfl, hparent⟩

end

/-- A label between two markers, of which only the second has something to
stand under, and a line that is indented too far. -/
example : lines 2 "[... Recursive call to a ...]\n b\n\n    [... Recursive call to  c ...]\n\t \n   d" =
    [⟨0, true, ⟨"a"⟩⟩, ⟨0, false, ⟨"b"⟩⟩, ⟨1, true, ⟨"c"⟩⟩, ⟨1, false, ⟨"d"⟩⟩] := by
  decide +kernel

end Hierarchy

end CallerGraph
