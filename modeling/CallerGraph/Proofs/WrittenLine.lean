import CallerGraph.Hierarchy
import Mathlib.Data.List.Nodup

/-!
# Lines of a written hierarchy

A hierarchy is written line by line: so many spaces for each level, then a
label, or the label inside a marker for a recursive call.  That gives the
lines back when the text is cut, and each line its level and its content,
as long as the labels are plain: not empty, without blanks at their ends or
line feeds inside, and not of the shape of a marker.
-/

namespace CallerGraph

namespace Text

/-- Neither the first nor the last character is a blank. -/
def Bare (cs : List Char) : Prop :=
  (∀ c ∈ cs.head?, isBlank c = false) ∧ ∀ c ∈ cs.getLast?, isBlank c = false

theorem skipBlanks_eq_self {cs : List Char} (h : ∀ c ∈ cs.head?, isBlank c = false) :
    skipBlanks cs = cs := by
  cases cs with
  | nil => rfl
  | cons c cs =>
      have hfirst := h c rfl
      simp [skipBlanks, hfirst]

/-- Trimming takes the spaces in front of a bare text away and nothing
else. -/
theorem trimChars_replicate_append {cs : List Char} (h : Bare cs) (count : Nat) :
    trimChars (List.replicate count ' ' ++ cs) = cs := by
  have hspaces : skipBlanks (List.replicate count ' ' ++ cs) = cs := by
    have hblank : ∀ c ∈ List.replicate count ' ', isBlank c = true := by
      intro c hc
      rw [List.eq_of_mem_replicate hc]
      decide
    rw [skipBlanks, List.dropWhile_append_of_pos hblank]
    exact skipBlanks_eq_self h.1
  have hlast : ∀ c ∈ cs.reverse.head?, isBlank c = false := by
    rw [List.head?_reverse]
    exact h.2
  rw [trimChars, hspaces, skipBlanks_eq_self hlast, List.reverse_reverse]

theorem trimChars_eq_self {cs : List Char} (h : Bare cs) : trimChars cs = cs :=
  trimChars_replicate_append h 0

/-- The spaces in front of a bare text are its indentation. -/
theorem indentation_replicate_append {cs : List Char} (h : Bare cs) (count : Nat) :
    indentation (List.replicate count ' ' ++ cs) = count := by
  have hspaces : ∀ c ∈ List.replicate count ' ', (c == ' ') = true := by
    intro c hc
    rw [List.eq_of_mem_replicate hc]
    rfl
  have hnone : cs.takeWhile (· == ' ') = [] := by
    cases cs with
    | nil => rfl
    | cons c cs =>
        have hne : c ≠ ' ' := by
          intro heq
          subst heq
          exact absurd (h.1 ' ' rfl) (by decide)
        simp [hne]
  rw [indentation, List.takeWhile_append_of_pos hspaces, hnone]
  simp

/-- A character that ends no line belongs to the first line. -/
theorem splitLines_cons {c : Char} {cs line : List Char} {lines : List (List Char)}
    (hfeed : c ≠ '\n') (hreturn : c = '\r' → cs.head? ≠ some '\n')
    (hrest : splitLines cs = line :: lines) : splitLines (c :: cs) = (c :: line) :: lines := by
  rw [splitLines, hrest]
  · exact hfeed
  · intro rest hc hcs
    exact hreturn hc (by rw [hcs]; rfl)

/-- A line without a line feed, and with no carriage return at its end, is
cut off whole. -/
theorem splitLines_append {line : List Char} (hfeed : '\n' ∉ line)
    (hreturn : line.getLast? ≠ some '\r') (rest : List Char) :
    splitLines (line ++ '\n' :: rest) = line :: splitLines rest := by
  induction line with
  | nil => simp [splitLines]
  | cons c line ih =>
      have hc : c ≠ '\n' := fun h => hfeed (h ▸ List.mem_cons_self)
      have hline : '\n' ∉ line := fun h => hfeed (List.mem_cons_of_mem c h)
      cases line with
      | nil =>
          refine splitLines_cons hc ?_ (ih hline (by simp))
          intro heq
          exact absurd (heq ▸ rfl) hreturn
      | cons d line =>
          refine splitLines_cons hc ?_ (ih hline (by simpa using hreturn))
          intro _ hhead
          exact hline (Option.some.inj hhead ▸ List.mem_cons_self)

/-- Lines that are each written with a line feed behind are read back. -/
theorem splitLines_flatMap {lines : List (List Char)} (hfeed : ∀ line ∈ lines, '\n' ∉ line)
    (hreturn : ∀ line ∈ lines, line.getLast? ≠ some '\r') :
    splitLines (lines.flatMap fun line => line ++ ['\n']) = lines := by
  induction lines with
  | nil => rfl
  | cons line lines ih =>
      rw [List.flatMap_cons, List.append_assoc, List.singleton_append,
        splitLines_append (hfeed line List.mem_cons_self) (hreturn line List.mem_cons_self),
        ih (fun other h => hfeed other (List.mem_cons_of_mem _ h))
          (fun other h => hreturn other (List.mem_cons_of_mem _ h))]

theorem dropLead?_eq_some_iff {lead : String} {cs rest : List Char} :
    dropLead? lead cs = some rest ↔ lead.toList ++ rest = cs :=
  List.isPrefixOf?_eq_some_iff_append_eq

theorem dropTail?_eq_some_iff {tail : String} {cs rest : List Char} :
    dropTail? tail cs = some rest ↔ rest ++ tail.toList = cs :=
  List.isSuffixOf?_eq_some_iff_append_eq

end Text

namespace Hierarchy

/-- The marker for a recursive call. -/
def marker (inner : List Char) : List Char :=
  "[... Recursive call to ".toList ++ inner ++ " ...]".toList

/-- A text is read as a marker when it is one, and what is inside is
trimmed. -/
theorem markedLabel?_eq_some_iff {content label : List Char} :
    markedLabel? content = some label ↔
      ∃ inner, content = marker inner ∧ label = Text.trimChars inner := by
  simp only [markedLabel?, Option.bind_eq_bind, Option.bind_eq_some_iff,
    Text.dropLead?_eq_some_iff, Text.dropTail?_eq_some_iff, Option.pure_def, Option.some.injEq]
  constructor
  · intro h
    obtain ⟨behind, rfl, inner, rfl, rfl⟩ := h
    exact ⟨inner, (List.append_assoc _ _ _).symm, rfl⟩
  · intro h
    obtain ⟨inner, rfl, rfl⟩ := h
    exact ⟨_, (List.append_assoc _ _ _).symm, inner, rfl, rfl⟩

end Hierarchy

namespace Label

/-- Labels that can be written on a line of their own. -/
structure Plain (label : Label) : Prop where
  nonempty : label.text.toList ≠ []
  bare : Text.Bare label.text.toList
  oneLine : '\n' ∉ label.text.toList
  unmarked : ∀ inner, label.text.toList ≠ Hierarchy.marker inner

end Label

namespace Hierarchy

/-- What a line says about the newest method of a chain: its label, or that
it is on the chain already. -/
def contentOf (label : Label) (below : List Label) : List Char :=
  if label ∈ below then marker label.text.toList else label.text.toList

/-- The line of a chain, indented by a level for each method below its
newest. -/
def lineOf (width : Nat) : List Label → List Char
  | [] => []
  | label :: below => List.replicate (width * below.length) ' ' ++ contentOf label below

/-- The text of a hierarchy: a line for each chain, and a line feed behind
each line. -/
def write (width : Nat) (chains : List (List Label)) : String :=
  String.ofList ((chains.map (lineOf width)).flatMap fun line => line ++ ['\n'])

/-- A marker begins and ends with a bracket. -/
theorem exists_marker_eq (inner : List Char) :
    ∃ middle, marker inner = '[' :: (middle ++ [']']) := by
  refine ⟨"... Recursive call to ".toList ++ inner ++ " ...".toList, ?_⟩
  unfold marker
  simp only [String.reduceToList, List.cons_append, List.append_assoc, List.nil_append]

theorem bare_marker (inner : List Char) : Text.Bare (marker inner) := by
  obtain ⟨middle, hshape⟩ := exists_marker_eq inner
  rw [hshape, ← List.cons_append]
  constructor
  · intro c hc
    obtain rfl : '[' = c := Option.some.inj hc
    decide
  · intro c hc
    rw [List.getLast?_concat] at hc
    obtain rfl : ']' = c := Option.some.inj hc
    decide

theorem newline_not_mem_marker {inner : List Char} (h : '\n' ∉ inner) : '\n' ∉ marker inner := by
  have hlead : '\n' ∉ "[... Recursive call to ".toList := by decide
  have htail : '\n' ∉ " ...]".toList := by decide
  intro hmem
  obtain hfront | hback := List.mem_append.1 hmem
  · exact (List.mem_append.1 hfront).elim hlead h
  · exact htail hback

theorem bare_contentOf {label : Label} (hplain : label.Plain) (below : List Label) :
    Text.Bare (contentOf label below) := by
  unfold contentOf
  split
  case isTrue => exact bare_marker _
  case isFalse => exact hplain.bare

theorem contentOf_ne_nil {label : Label} (hplain : label.Plain) (below : List Label) :
    contentOf label below ≠ [] := by
  unfold contentOf
  split
  case isTrue =>
    obtain ⟨middle, hshape⟩ := exists_marker_eq label.text.toList
    rw [hshape]
    exact List.cons_ne_nil _ _
  case isFalse => exact hplain.nonempty

theorem newline_not_mem_contentOf {label : Label} (hplain : label.Plain) (below : List Label) :
    '\n' ∉ contentOf label below := by
  unfold contentOf
  split
  case isTrue => exact newline_not_mem_marker hplain.oneLine
  case isFalse => exact hplain.oneLine

/-- A line of a plain label is one line. -/
theorem lineOf_oneLine {label : Label} (hplain : label.Plain) (width : Nat) (below : List Label) :
    '\n' ∉ lineOf width (label :: below) ∧
      (lineOf width (label :: below)).getLast? ≠ some '\r' := by
  constructor
  · simpa [lineOf] using newline_not_mem_contentOf hplain below
  · intro hreturn
    obtain ⟨last, hlast⟩ := Option.ne_none_iff_exists'.1
      (mt List.getLast?_eq_none_iff.1 (contentOf_ne_nil hplain below))
    rw [lineOf, List.getLast?_append, hlast, Option.some_or, Option.some.injEq] at hreturn
    have hblank := (bare_contentOf hplain below).2 last hlast
    rw [hreturn] at hblank
    exact absurd hblank (by decide)

/-- A label of a single character is plain, unless that is a blank. -/
theorem plain_singleton {c : Char} (hblank : Text.isBlank c = false) :
    Label.Plain ⟨String.ofList [c]⟩ where
  nonempty := by simp
  bare := by
    have hlast : ∀ d ∈ some c, Text.isBlank d = false := by
      intro d hd
      exact Option.some.inj hd ▸ hblank
    rw [String.toList_ofList]
    exact ⟨hlast, hlast⟩
  oneLine := by
    rw [String.toList_ofList, List.mem_singleton]
    intro hfeed
    subst hfeed
    exact absurd hblank (by decide)
  unmarked inner hmarker := by
    obtain ⟨middle, hshape⟩ := exists_marker_eq inner
    rw [String.toList_ofList, hshape] at hmarker
    simp at hmarker

/-- Cutting a written hierarchy gives its lines. -/
theorem splitLines_write {width : Nat} {chains : List (List Label)}
    (hplain : ∀ chain ∈ chains, ∃ label below, chain = label :: below ∧ label.Plain) :
    Text.splitLines (write width chains).toList = chains.map (lineOf width) := by
  have hlines : ∀ line ∈ chains.map (lineOf width),
      '\n' ∉ line ∧ line.getLast? ≠ some '\r' := by
    intro line hline
    obtain ⟨chain, hchain, rfl⟩ := List.mem_map.1 hline
    obtain ⟨label, below, rfl, hlabel⟩ := hplain chain hchain
    exact lineOf_oneLine hlabel width below
  rw [write, String.toList_ofList]
  exact Text.splitLines_flatMap (fun line h => (hlines line h).1) fun line h => (hlines line h).2

/-- Two methods that call each other. -/
example : write 2 [[⟨"a"⟩], [⟨"b"⟩, ⟨"a"⟩], [⟨"a"⟩, ⟨"b"⟩, ⟨"a"⟩]] =
    "a\n  b\n    [... Recursive call to a ...]\n" := by
  decide

namespace Reading

variable {options : HierarchyOptions} {reading : Reading} {label : Label} {below : List Label}

/-- A written line is read at its level, with the content that it was
written for. -/
theorem readLine_lineOf (hwidth : 0 < options.indentWidth) (hplain : label.Plain) (number : Nat) :
    reading.readLine options (lineOf options.indentWidth (label :: below)) number =
      match markedLabel? (contentOf label below) with
      | some marked =>
          (Reading.tell { reading with ancestors := reading.ancestors.take below.length }
            [.recursiveMarker number (String.ofList marked)]).readMarker options.cycles
              ⟨String.ofList marked⟩
      | none =>
          Reading.readLabel { reading with ancestors := reading.ancestors.take below.length }
            ⟨String.ofList (contentOf label below)⟩ := by
  have hbare := bare_contentOf hplain below
  have hlevel : reading.level options.indentWidth (lineOf options.indentWidth (label :: below)) =
      min below.length reading.ancestors.length := by
    rw [level, lineOf, Text.indentation_replicate_append hbare, Nat.max_eq_left hwidth,
      Nat.mul_div_cancel_left _ hwidth]
  have hcontent : Text.trimChars (lineOf options.indentWidth (label :: below)) =
      contentOf label below := by
    rw [lineOf, Text.trimChars_replicate_append hbare]
  have hcut : reading.ancestors.take (min below.length reading.ancestors.length) =
      reading.ancestors.take below.length :=
    List.take_eq_take_min.symm
  cases hmarked : markedLabel? (contentOf label below) with
  | none => simp [readLine, hcontent, contentOf_ne_nil hplain below, hlevel, hcut, hmarked]
  | some marked => simp [readLine, hcontent, contentOf_ne_nil hplain below, hlevel, hcut, hmarked]

/-- The line of a label that is new on its chain. -/
theorem readLine_of_not_mem (hwidth : 0 < options.indentWidth) (hplain : label.Plain)
    (hnew : label ∉ below) (number : Nat) :
    reading.readLine options (lineOf options.indentWidth (label :: below)) number =
      Reading.readLabel { reading with ancestors := reading.ancestors.take below.length }
        label := by
  have hcontent : contentOf label below = label.text.toList := if_neg hnew
  have hunmarked : markedLabel? label.text.toList = none := by
    rw [Option.eq_none_iff_forall_ne_some]
    intro marked hmarked
    obtain ⟨inner, hinner, -⟩ := markedLabel?_eq_some_iff.1 hmarked
    exact hplain.unmarked inner hinner
  rw [readLine_lineOf hwidth hplain, hcontent, hunmarked, String.ofList_toList]

/-- The line of a label that is on its chain already. -/
theorem readLine_of_mem (hwidth : 0 < options.indentWidth) (hplain : label.Plain)
    (hmem : label ∈ below) (number : Nat) :
    reading.readLine options (lineOf options.indentWidth (label :: below)) number =
      (Reading.tell { reading with ancestors := reading.ancestors.take below.length }
        [.recursiveMarker number label.text]).readMarker options.cycles label := by
  have hcontent : contentOf label below = marker label.text.toList := if_pos hmem
  have hmarked : markedLabel? (marker label.text.toList) = some label.text.toList :=
    markedLabel?_eq_some_iff.2 ⟨_, rfl, (Text.trimChars_eq_self hplain.bare).symm⟩
  rw [readLine_lineOf hwidth hplain, hcontent, hmarked]
  simp only [String.ofList_toList]

end Reading

end Hierarchy

end CallerGraph
