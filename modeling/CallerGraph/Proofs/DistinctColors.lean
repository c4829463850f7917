import CallerGraph.Color.Tabled
import Std.Data.HashMap.Lemmas
import Std.Data.HashSet.Lemmas

/-!
# Different classes, different colours

Nothing is known about the colours that are drawn: `chooseColor` may answer one
that is in use.  That no two classes share a colour rests on drawing again, and
on the colours of classes and the colours in use being kept together.

What a palette shows is a `Coloring`, and `Coloring.Gives` says all that happens
to it when a class is asked for.  Palettes do nothing else, and neither do
palettes with tables, in whatever order the colours in use are listed to them.

The patience of a source is no part of this.  A palette that has found a colour
for every class finds the same colours with more patience, which is
`Palette.colorFor_patient`.
-/

namespace CallerGraph

/-- Candidates that are all alike leave no choice. -/
theorem farthest_of_forall {score : Hsb → Float32} {color : Hsb} {colors : List Hsb}
    (halike : ∀ other ∈ colors, other = color) (reached : Float32) :
    farthest score (color, reached) colors = color := by
  induction colors generalizing reached with
  | nil => rfl
  | cons other colors ih =>
      have hrest := ih fun that hthat => halike that (List.mem_cons_of_mem other hthat)
      rw [halike other List.mem_cons_self, farthest]
      split
      · exact hrest _
      · exact hrest _

/-- The colour that is chosen when all that can be drawn are alike. -/
theorem chooseColor_of_forall {words : Words} {position : Nat} {color : Hsb}
    (halike : ∀ i, drawColor words (position + wordsPerColor * i) = color)
    (inUse : List String) : (chooseColor words position inUse).1 = color.toHex := by
  have hfirst : drawColor words position = color := halike 0
  unfold chooseColor
  split
  · rw [hfirst]
  · simp only [hfirst]
    rw [farthest_of_forall]
    intro other hother
    obtain ⟨i, -, rfl⟩ := List.mem_map.1 hother
    exact halike (i + 1)

/-- What a palette shows: the colours of classes, and whether a class had to
share one. -/
structure Coloring where
  colorOf : String → Option String
  stalled : Bool

namespace Coloring

variable {before after last : Coloring} {className color : String}

/-- Different classes have different colours, unless one had to share. -/
def Distinct (coloring : Coloring) : Prop :=
  coloring.stalled = false → ∀ {className other color : String},
    coloring.colorOf className = some color → coloring.colorOf other = some color →
      className = other

/-- Colours and classes say the same about each other. -/
theorem Distinct.colors_eq_iff {coloring : Coloring} (h : coloring.Distinct)
    (hquiet : coloring.stalled = false) {className other color shade : String}
    (hclass : coloring.colorOf className = some color)
    (hother : coloring.colorOf other = some shade) : color = shade ↔ className = other := by
  constructor
  · rintro rfl
    exact h hquiet hclass hother
  · rintro rfl
    exact Option.some.inj (hclass.symm.trans hother)

/-- Classes keep their colours, and that one had to share stays on record. -/
structure Extends (before after : Coloring) : Prop where
  colorOf : ∀ {className color}, before.colorOf className = some color →
    after.colorOf className = some color
  stalled : after.stalled = false → before.stalled = false

theorem Extends.refl (coloring : Coloring) : coloring.Extends coloring :=
  ⟨id, id⟩

theorem Extends.trans (hfirst : before.Extends after) (hthen : after.Extends last) :
    before.Extends last :=
  ⟨fun h => hthen.colorOf (hfirst.colorOf h), fun h => hfirst.stalled (hthen.stalled h)⟩

/-- A class is asked for and answered with a colour. -/
structure Gives (before : Coloring) (className color : String) (after : Coloring) : Prop where
  colorOf : ∀ other,
    after.colorOf other = if other = className then some color else before.colorOf other
  stalled : after.stalled = false → before.stalled = false
  /-- The colour is the one that the class had, if it had one. -/
  known : ∀ {old}, before.colorOf className = some old → color = old
  /-- Otherwise no class had it. -/
  free : after.stalled = false → before.colorOf className = none →
    ∀ other, before.colorOf other ≠ some color

/-- A class that is asked for has the colour that is answered. -/
theorem Gives.colorOf_self (h : before.Gives className color after) :
    after.colorOf className = some color := by
  rw [h.colorOf, if_pos rfl]

theorem Gives.extends (h : before.Gives className color after) : before.Extends after where
  colorOf {other old} hother := by
    rw [h.colorOf]
    by_cases heq : other = className
    · subst heq
      rw [if_pos rfl, h.known hother]
    · rw [if_neg heq, hother]
  stalled := h.stalled

/-- A class that had a colour changes nothing. -/
theorem gives_known (coloring : Coloring) (h : coloring.colorOf className = some color) :
    coloring.Gives className color coloring where
  colorOf other := by
    by_cases heq : other = className
    · rw [if_pos heq, heq, h]
    · rw [if_neg heq]
  stalled := id
  known hold := Option.some.inj (h.symm.trans hold)
  free _ hnone := by
    rw [h] at hnone
    cases hnone

/-- **One class more has a colour of its own.** -/
theorem Gives.distinct (h : before.Gives className color after) (hdistinct : before.Distinct) :
    after.Distinct := by
  intro hquiet
  have hbefore := @hdistinct (h.stalled hquiet)
  cases hknown : before.colorOf className with
  | some old =>
      -- The class had this colour before, so nothing has changed.
      have hsame : after.colorOf = before.colorOf := by
        funext other
        rw [h.colorOf]
        by_cases heq : other = className
        · rw [if_pos heq, heq, hknown, h.known hknown]
        · rw [if_neg heq]
      rwa [hsame]
  | none =>
      have hfree := h.free hquiet hknown
      intro first second shade hfirst hsecond
      rw [h.colorOf] at hfirst hsecond
      by_cases hgiven : first = className
      · by_cases hthat : second = className
        · rw [hgiven, hthat]
        · rw [if_pos hgiven] at hfirst
          rw [if_neg hthat, ← hfirst] at hsecond
          exact absurd hsecond (hfree second)
      · rw [if_neg hgiven] at hfirst
        by_cases hthat : second = className
        · rw [if_pos hthat] at hsecond
          rw [← hsecond] at hfirst
          exact absurd hfirst (hfree first)
        · rw [if_neg hthat] at hsecond
          exact hbefore hfirst hsecond

end Coloring

namespace Palette

variable {palette : Palette} {className color : String} {words : Words} {inUse : List String}
  {tries position : Nat}

/-- What a palette shows. -/
def coloring (palette : Palette) : Coloring :=
  ⟨palette.lookup?, palette.stalled⟩

theorem distinct_fresh (source : ColorSource) : (fresh source).coloring.Distinct :=
  fun _ _ _ _ h => nomatch h

/-- A colour that is found free is not in use. -/
theorem not_mem_of_search (hfree : (search words inUse tries position).isFree = true) :
    (search words inUse tries position).color ∉ inUse := by
  fun_induction search words inUse tries position with
  | case1 position color next hchosen hused => cases hfree
  | case2 position color next hchosen hused tries ih => exact ih hfree
  | case3 tries position color next hchosen hunused =>
      exact fun hmem => hunused (List.contains_iff_mem.2 hmem)

/-- A colour that is free is taken at once. -/
theorem search_of_not_mem (hfree : (chooseColor words position inUse).1 ∉ inUse) (tries : Nat) :
    search words inUse tries position =
      ⟨(chooseColor words position inUse).1, (chooseColor words position inUse).2, true⟩ := by
  have hunused := mt List.contains_iff_mem.1 hfree
  unfold search
  simp only [hunused]
  rfl

/-- A search that has come to its end takes no further tries. -/
theorem search_patient (hfree : (search words inUse tries position).isFree = true) (more : Nat) :
    search words inUse (tries + more) position = search words inUse tries position := by
  fun_induction search words inUse tries position with
  | case1 position color next hchosen hused => cases hfree
  | case2 position color next hchosen hused tries ih =>
      rw [Nat.succ_add, search]
      simp only [hchosen, hused, if_true]
      exact ih hfree
  | case3 tries position color next hchosen hunused =>
      rw [search]
      simp only [hchosen, hunused]
      rfl

/-- The search that a class without a colour sets off. -/
def next (palette : Palette) : Search :=
  search palette.source.words palette.inUse palette.source.patience palette.position

theorem colorFor_of_known (h : palette.lookup? className = some color) :
    palette.colorFor className = (color, palette) := by
  simp only [colorFor, h]

theorem colorFor_of_new (h : palette.lookup? className = none) :
    palette.colorFor className =
      (palette.next.color,
        { palette with
          position := palette.next.position
          assigned := palette.assigned ++ [(className, palette.next.color)]
          stalled := palette.stalled || !palette.next.isFree }) := by
  simp only [colorFor, h, next]

/-- A palette that has not stalled has found what it searched for. -/
theorem isFree_next (h : palette.lookup? className = none)
    (hquiet : (palette.colorFor className).2.stalled = false) : palette.next.isFree = true := by
  rw [colorFor_of_new h] at hquiet
  simpa using (Bool.or_eq_false_iff.1 hquiet).2

/-- The colour of a class is in use. -/
theorem mem_inUse (h : palette.lookup? className = some color) : color ∈ palette.inUse := by
  obtain ⟨given, hfound, rfl⟩ := Option.map_eq_some_iff.1 h
  exact List.mem_map_of_mem (List.mem_of_find?_eq_some hfound)

/-- **A palette gives colours.** -/
theorem gives_colorFor (palette : Palette) (className : String) :
    palette.coloring.Gives className (palette.colorFor className).1
      (palette.colorFor className).2.coloring := by
  cases hknown : palette.lookup? className with
  | some color =>
      rw [colorFor_of_known hknown]
      exact palette.coloring.gives_known hknown
  | none =>
      have hnone : palette.assigned.find? (·.1 == className) = none :=
        Option.map_eq_none_iff.1 hknown
      refine ⟨fun other => ?_, fun hquiet => ?_, fun hold => ?_, fun hquiet _ other hother => ?_⟩
      · rw [colorFor_of_new hknown]
        change lookup? _ other = if _ then _ else palette.lookup? other
        by_cases heq : other = className
        · subst heq
          simp [lookup?, List.find?_append, hnone]
        · have hne : (className == other) = false := by simpa using Ne.symm heq
          simp [lookup?, List.find?_append, heq, hne]
      · rw [colorFor_of_new hknown] at hquiet
        exact (Bool.or_eq_false_iff.1 hquiet).1
      · exact nomatch hknown.symm.trans hold
      · have hfree := not_mem_of_search (isFree_next hknown hquiet)
        rw [colorFor_of_new hknown] at hother
        exact hfree (mem_inUse hother)

/-- The palette when some classes have been asked for, one after the other. -/
def after (palette : Palette) (classNames : List String) : Palette :=
  classNames.foldl (fun palette className => (palette.colorFor className).2) palette

theorem after_append (palette : Palette) (classNames more : List String) :
    palette.after (classNames ++ more) = (palette.after classNames).after more :=
  List.foldl_append

/-- The palette with more patience. -/
def patient (more : Nat) (palette : Palette) : Palette :=
  { palette with source := ⟨palette.source.words, palette.source.patience + more⟩ }

/-- **Patience changes no colour** of a palette that does without. -/
theorem colorFor_patient (hquiet : (palette.colorFor className).2.stalled = false) (more : Nat) :
    (palette.patient more).colorFor className =
      ((palette.colorFor className).1, (palette.colorFor className).2.patient more) := by
  cases hknown : palette.lookup? className with
  | some color =>
      have hpatient : (palette.patient more).lookup? className = some color := hknown
      rw [colorFor_of_known hknown, colorFor_of_known hpatient]
  | none =>
      have hpatient : (palette.patient more).lookup? className = none := hknown
      have hnext : (palette.patient more).next = palette.next :=
        search_patient (isFree_next hknown hquiet) more
      rw [colorFor_of_new hknown, colorFor_of_new hpatient, hnext]
      rfl

end Palette

namespace TabledPalette

variable {listing : Std.HashSet String → List String} {palette : TabledPalette}
  {className color : String}

/-- What a palette with tables shows. -/
def coloring (palette : TabledPalette) : Coloring :=
  ⟨palette.lookup?, palette.stalled⟩

/-- The set of colours in use has the colours of classes and no others. -/
def InStep (palette : TabledPalette) : Prop :=
  ∀ color, color ∈ palette.used ↔ ∃ className, palette.lookup? className = some color

theorem inStep_fresh (source : ColorSource) : (fresh source).InStep := by
  simp [InStep, fresh, lookup?]

theorem distinct_fresh (source : ColorSource) : (fresh source).coloring.Distinct := by
  intro _ className other color h
  simp [coloring, fresh, lookup?] at h

/-- A colour that is found free is not in use. -/
theorem not_mem_of_search {words : Words} {used : Std.HashSet String} {tries position : Nat}
    (hfree : (search listing words used tries position).isFree = true) :
    (search listing words used tries position).color ∉ used := by
  fun_induction search listing words used tries position with
  | case1 position color next hchosen hused => cases hfree
  | case2 position color next hchosen hused tries ih => exact ih hfree
  | case3 tries position color next hchosen hunused => simpa using hunused

/-- A colour that is free is taken at once. -/
theorem search_of_not_mem {words : Words} {used : Std.HashSet String} {position : Nat}
    (hfree : (chooseColor words position (listing used)).1 ∉ used) (tries : Nat) :
    search listing words used tries position =
      ⟨(chooseColor words position (listing used)).1,
        (chooseColor words position (listing used)).2, true⟩ := by
  have hunused := mt Std.HashSet.contains_iff_mem.1 hfree
  unfold search
  simp only [hunused]
  rfl

/-- The search that a class without a colour sets off. -/
def next (listing : Std.HashSet String → List String) (palette : TabledPalette) :
    Palette.Search :=
  search listing palette.source.words palette.used palette.source.patience palette.position

theorem colorFor_of_known (h : palette.lookup? className = some color) :
    palette.colorFor listing className = (color, palette) := by
  simp only [colorFor, h]

theorem colorFor_of_new (h : palette.lookup? className = none) :
    palette.colorFor listing className =
      ((palette.next listing).color,
        { palette with
          position := (palette.next listing).position
          assigned := palette.assigned.insert className (palette.next listing).color
          used := palette.used.insert (palette.next listing).color
          stalled := palette.stalled || !(palette.next listing).isFree }) := by
  simp only [colorFor, h, next]

/-- The class has the colour that is answered, and every other class has what
it had. -/
theorem lookup?_colorFor (palette : TabledPalette) (className other : String) :
    (palette.colorFor listing className).2.lookup? other =
      if other = className then some (palette.colorFor listing className).1
      else palette.lookup? other := by
  cases hknown : palette.lookup? className with
  | some color =>
      rw [colorFor_of_known hknown]
      by_cases heq : other = className
      · rw [if_pos heq, heq, hknown]
      · rw [if_neg heq]
  | none =>
      rw [colorFor_of_new hknown]
      simp only [lookup?, Std.HashMap.getElem?_insert, beq_iff_eq]
      by_cases heq : other = className
      · rw [if_pos heq, if_pos heq.symm]
      · rw [if_neg heq, if_neg (Ne.symm heq)]

/-- **The two tables stay in step.** -/
theorem InStep.colorFor (h : palette.InStep) (className : String) :
    (palette.colorFor listing className).2.InStep := by
  intro color
  simp only [lookup?_colorFor]
  cases hknown : palette.lookup? className with
  | some old =>
      rw [colorFor_of_known hknown]
      simp only
      rw [h]
      grind
  | none =>
      rw [colorFor_of_new hknown]
      simp only [Std.HashSet.mem_insert, beq_iff_eq]
      rw [h]
      grind

/-- **A palette with tables gives colours.** -/
theorem InStep.gives_colorFor (h : palette.InStep) (listing : Std.HashSet String → List String)
    (className : String) :
    palette.coloring.Gives className (palette.colorFor listing className).1
      (palette.colorFor listing className).2.coloring := by
  cases hknown : palette.lookup? className with
  | some color =>
      rw [colorFor_of_known hknown]
      exact palette.coloring.gives_known hknown
  | none =>
      refine ⟨lookup?_colorFor palette className, fun hquiet => ?_, fun hold => ?_,
        fun hquiet _ other hother => ?_⟩
      · rw [colorFor_of_new hknown] at hquiet
        exact (Bool.or_eq_false_iff.1 hquiet).1
      · exact nomatch hknown.symm.trans hold
      · rw [colorFor_of_new hknown] at hquiet hother
        have hfree : (palette.next listing).isFree = true := by
          simpa using (Bool.or_eq_false_iff.1 hquiet).2
        exact not_mem_of_search hfree ((h _).2 ⟨other, hother⟩)

/-- **Classes asked for one after the other** have the colours that were
answered, and keep them. -/
theorem InStep.colorsFor (h : palette.InStep) (hdistinct : palette.coloring.Distinct)
    (listing : Std.HashSet String → List String) (classNames : List String) :
    let asked := palette.colorsFor listing classNames
    asked.1.length = classNames.length ∧ asked.2.coloring.Distinct ∧
      palette.coloring.Extends asked.2.coloring ∧
      ∀ given ∈ classNames.zip asked.1, asked.2.lookup? given.1 = some given.2 := by
  induction classNames generalizing palette with
  | nil =>
      intro asked
      exact ⟨rfl, hdistinct, .refl _, fun given hgiven => nomatch hgiven⟩
  | cons className classNames ih =>
      intro asked
      have hgives := h.gives_colorFor listing className
      obtain ⟨hlength, hlater, hextends, hrest⟩ :=
        ih (h.colorFor className) (hgives.distinct hdistinct)
      refine ⟨congrArg (· + 1) hlength, hlater, hgives.extends.trans hextends, ?_⟩
      intro given hgiven
      rcases List.mem_cons.1 hgiven with rfl | htail
      · exact hextends.colorOf hgives.colorOf_self
      · exact hrest given htail

end TabledPalette

end CallerGraph
