import CallerGraph.Color.Generator
import CallerGraph.Proofs.NumberOrder

/-!
# The colour that stands out

The clearance of a colour is the least of its distances to the colours in use.
It has one height in whatever order these are taken, so a choice depends only on
which colours are in use: `chooseColor_congr`.

Of several candidates the choice is the first that none surpasses.  What comes
before it is nearer, and what comes behind is not farther away; `IsFarthest` is
this split, and `farthest` comes to it by keeping the best so far.

A generator that keeps the best while it draws answers the same, and is left
behind the words that the choice took.
-/

namespace CallerGraph

variable {known others colors : List Hsb} {color : Hsb} {score : Hsb → Float32}

/-! ### Clearance -/

theorem isNaN_infinitelyFar : infinitelyFar.isNaN = false := by decide +kernel

/-- Nothing is beyond `infinitelyFar`. -/
theorem not_infinitelyFar_lt (distance : Float32) : ¬ infinitelyFar < distance := by
  have hfar : height infinitelyFar = place (.infinity .positive) := by decide +kernel
  rw [lt_iff_height, hfar]
  rintro ⟨hlt, hnumber⟩
  exact hlt.not_ge (place_le_place_infinity hnumber)

/-- The least of some distances and a first one is above what all of them are
above. -/
theorem le_height_foldl_iff {least : ℤ ×ₗ ℤ ×ₗ ℤ} {first : Float32} :
    least ≤ height (known.foldl (fun nearest other => lesser nearest (color.distance other)) first) ↔
      least ≤ height first ∧ ∀ other ∈ known, least ≤ height (color.distance other) := by
  induction known generalizing first with
  | nil => simp
  | cons other known ih =>
      rw [List.foldl_cons, ih, height_lesser, le_min_iff, List.forall_mem_cons, and_assoc]

theorem le_height_clearance_iff {least : ℤ ×ₗ ℤ ×ₗ ℤ} :
    least ≤ height (clearance known color) ↔
      least ≤ height infinitelyFar ∧ ∀ other ∈ known, least ≤ height (color.distance other) :=
  le_height_foldl_iff

/-- Clearances are numbers. -/
theorem isNaN_clearance (known : List Hsb) (color : Hsb) :
    (clearance known color).isNaN = false :=
  isNaN_eq_false_of_height_le (le_height_clearance_iff.1 le_rfl).1 isNaN_infinitelyFar

/-- The least of some distances and a first one is one of them. -/
theorem foldl_lesser_eq_or (first : Float32) :
    let least := known.foldl (fun nearest other => lesser nearest (color.distance other)) first
    least = first ∨ ∃ other ∈ known, least = color.distance other := by
  induction known generalizing first with
  | nil => exact .inl rfl
  | cons other known ih =>
      rcases ih (lesser first (color.distance other)) with hfirst | ⟨that, hthat, hleast⟩
      · rcases lesser_eq_or first (color.distance other) with hlesser | hlesser
        · exact .inl (hfirst.trans hlesser)
        · exact .inr ⟨other, List.mem_cons_self, hfirst.trans hlesser⟩
      · exact .inr ⟨that, List.mem_cons_of_mem other hthat, hleast⟩

/-- A number is the least distance of a colour to some others. -/
structure IsNearest (known : List Hsb) (color : Hsb) (nearest : Float32) : Prop where
  isNaN : nearest.isNaN = false
  /-- None of them is nearer. -/
  least : ∀ other ∈ known, ¬ color.distance other < nearest
  /-- One of them is not farther away. -/
  reached : ∃ other ∈ known, ¬ nearest < color.distance other
  /-- It is one of the distances, unless none is below infinity. -/
  attained : nearest = infinitelyFar ∨ ∃ other ∈ known, nearest = color.distance other

/-- **The clearance is the least distance.** -/
theorem isNearest_clearance (h : known ≠ []) (color : Hsb) :
    IsNearest known color (clearance known color) where
  isNaN := isNaN_clearance known color
  least other hother := by
    rw [not_lt_iff_height (isNaN_clearance known color)]
    exact (le_height_clearance_iff.1 le_rfl).2 other hother
  reached := by
    rcases foldl_lesser_eq_or infinitelyFar with hfar | ⟨other, hother, hleast⟩
    · obtain ⟨other, hother⟩ := List.exists_mem_of_ne_nil known h
      refine ⟨other, hother, ?_⟩
      rw [clearance, hfar]
      exact not_infinitelyFar_lt _
    · refine ⟨other, hother, ?_⟩
      rw [clearance, hleast]
      exact not_lt_self _
  attained := foldl_lesser_eq_or infinitelyFar

/-- **The order of the colours in use does not matter** to clearances, and
neither do repetitions. -/
theorem clearance_lt_congr (hsame : ∀ color, color ∈ known ↔ color ∈ others) (a b : Hsb) :
    clearance known a < clearance known b ↔ clearance others a < clearance others b := by
  have hheight : ∀ color, height (clearance known color) = height (clearance others color) :=
    fun color => eq_of_forall_le_iff fun least => by simp only [le_height_clearance_iff, hsame]
  rw [lt_iff_height, lt_iff_height, hheight, hheight, isNaN_clearance, isNaN_clearance]

/-! ### The farthest of several -/

/-- A colour is the first that none surpasses. -/
def IsFarthest (score : Hsb → Float32) (candidates : List Hsb) (chosen : Hsb) : Prop :=
  ∃ before after, candidates = before ++ chosen :: after ∧
    (∀ other ∈ before, score other < score chosen) ∧ ∀ other ∈ after, ¬ score chosen < score other

/-- What is nearer than the first candidate is behind the best as well. -/
theorem IsFarthest.cons_of_lt {best chosen : Hsb} (h : IsFarthest score (color :: colors) chosen)
    (hbetter : score best < score color) : IsFarthest score (best :: color :: colors) chosen := by
  obtain ⟨before, after, hsplit, hbefore, hafter⟩ := h
  refine ⟨best :: before, after, congrArg (best :: ·) hsplit, ?_, hafter⟩
  refine List.forall_mem_cons.2 ⟨?_, hbefore⟩
  cases before with
  | nil => rwa [← (List.cons.inj hsplit).1]
  | cons first before =>
      obtain rfl := (List.cons.inj hsplit).1
      exact lt_of_lt_of_lt hbetter (hbefore color List.mem_cons_self)

/-- A candidate that does not surpass the first one changes nothing. -/
theorem IsFarthest.cons_of_not_lt {best chosen : Hsb} (h : IsFarthest score (best :: colors) chosen)
    (hnumber : (score color).isNaN = false) (hworse : ¬ score best < score color) :
    IsFarthest score (best :: color :: colors) chosen := by
  obtain ⟨before, after, hsplit, hbefore, hafter⟩ := h
  cases before with
  | nil =>
      obtain ⟨rfl, rfl⟩ := List.cons.inj hsplit
      exact ⟨[], color :: colors, rfl, fun _ hmem => (nomatch hmem),
        List.forall_mem_cons.2 ⟨hworse, hafter⟩⟩
  | cons first before =>
      obtain ⟨rfl, rfl⟩ := List.cons.inj hsplit
      obtain ⟨hfirst, hbehind⟩ := List.forall_mem_cons.1 hbefore
      refine ⟨best :: color :: before, after, rfl, ?_, hafter⟩
      exact List.forall_mem_cons.2
        ⟨hfirst, List.forall_mem_cons.2 ⟨lt_of_not_lt_of_lt hnumber hworse hfirst, hbehind⟩⟩

/-- **Keeping the best so far comes to the first best.** -/
theorem isFarthest_farthest (hnumber : ∀ color, (score color).isNaN = false) (best : Hsb)
    (colors : List Hsb) :
    IsFarthest score (best :: colors) (farthest score (best, score best) colors) := by
  induction colors generalizing best with
  | nil => exact ⟨[], [], rfl, fun _ hmem => (nomatch hmem), fun _ hmem => (nomatch hmem)⟩
  | cons color colors ih =>
      unfold farthest
      by_cases hbetter : score best < score color
      · simp only [hbetter, if_true]
        exact (ih color).cons_of_lt hbetter
      · simp only [hbetter, if_false]
        exact (ih best).cons_of_not_lt (hnumber color) hbetter

/-- Scores that order the colours alike lead to one choice. -/
theorem farthest_congr {other : Hsb → Float32}
    (halike : ∀ a b, score a < score b ↔ other a < other b) (best : Hsb) (colors : List Hsb) :
    farthest score (best, score best) colors = farthest other (best, other best) colors := by
  induction colors generalizing best with
  | nil => rfl
  | cons color colors ih =>
      unfold farthest
      by_cases hbetter : score best < score color
      · simp only [hbetter, (halike best color).1 hbetter, if_true]
        exact ih color
      · simp only [hbetter, mt (halike best color).2 hbetter, if_false]
        exact ih best

/-- Among numbered candidates the choice has a number. -/
theorem IsFarthest.exists_index {candidate : Nat → Hsb} {count : Nat}
    (h : IsFarthest score ((List.range count).map candidate) color) :
    ∃ i < count, candidate i = color ∧
      (∀ j < i, score (candidate j) < score (candidate i)) ∧
      ∀ j < count, i < j → ¬ score (candidate i) < score (candidate j) := by
  obtain ⟨before, after, hsplit, hbefore, hafter⟩ := h
  have hlength : count = before.length + (after.length + 1) := by
    simpa using congrArg List.length hsplit
  have hat : ∀ j < count, (before ++ color :: after)[j]? = some (candidate j) := by
    intro j hj
    rw [← hsplit, List.getElem?_map, List.getElem?_range hj, Option.map_some]
  have hchosen : candidate before.length = color := by
    simpa using (hat before.length (by omega)).symm
  refine ⟨before.length, by omega, hchosen, fun j hj => ?_, fun j hj hbehind => ?_⟩
  · have hmem := hat j (by omega)
    rw [List.getElem?_append_left hj] at hmem
    rw [hchosen]
    exact hbefore _ (List.mem_of_getElem? hmem)
  · have hmem := hat j hj
    rw [List.getElem?_append_right hbehind.le, List.getElem?_cons, if_neg (by omega)] at hmem
    rw [hchosen]
    exact hafter _ (List.mem_of_getElem? hmem)

/-! ### A choice -/

variable {words : Words} {position : Nat} {inUse other : List String}

/-- The candidates of a choice. -/
def candidate (words : Words) (position i : Nat) : Hsb :=
  drawColor words (position + wordsPerColor * i)

/-- With no colour in use the first one drawn is taken. -/
theorem chooseColor_of_eq_nil (h : inUse.filterMap Hsb.ofHex? = []) :
    chooseColor words position inUse =
      ((candidate words position 0).toHex, position + wordsPerColor) := by
  simp only [chooseColor, h]
  rfl

/-- Otherwise all candidates are drawn. -/
theorem chooseColor_of_ne_nil (h : inUse.filterMap Hsb.ofHex? ≠ []) :
    let score := clearance (inUse.filterMap Hsb.ofHex?)
    let first := candidate words position 0
    let rest := (List.range (candidateCount - 1)).map fun i => candidate words position (i + 1)
    chooseColor words position inUse =
      ((farthest score (first, score first) rest).toHex,
        position + wordsPerColor * candidateCount) := by
  obtain ⟨known, others, hknown⟩ := List.exists_cons_of_ne_nil h
  simp only [chooseColor, hknown]
  rfl

/-- The candidates, the first apart. -/
theorem map_range_candidate (candidate : Nat → Hsb) :
    (List.range candidateCount).map candidate =
      candidate 0 :: (List.range (candidateCount - 1)).map fun i => candidate (i + 1) := by
  rw [candidateCount, List.range_succ_eq_map, List.map_cons, List.map_map]
  rfl

/-- **The choice is the first candidate that is farthest** from the colours in
use. -/
theorem exists_chooseColor (h : inUse.filterMap Hsb.ofHex? ≠ []) :
    let score := clearance (inUse.filterMap Hsb.ofHex?)
    (chooseColor words position inUse).2 = position + wordsPerColor * candidateCount ∧
      ∃ i < candidateCount,
        (chooseColor words position inUse).1 = (candidate words position i).toHex ∧
        (∀ j < i, score (candidate words position j) < score (candidate words position i)) ∧
        ∀ j < candidateCount,
          ¬ score (candidate words position i) < score (candidate words position j) := by
  intro score
  have hfarthest := isFarthest_farthest (isNaN_clearance (inUse.filterMap Hsb.ofHex?))
    (candidate words position 0)
    ((List.range (candidateCount - 1)).map fun i => candidate words position (i + 1))
  rw [← map_range_candidate] at hfarthest
  obtain ⟨i, hi, hchosen, hbefore, hafter⟩ := hfarthest.exists_index
  rw [chooseColor_of_ne_nil h]
  refine ⟨rfl, i, hi, congrArg Hsb.toHex hchosen.symm, hbefore, fun j hj hlt => ?_⟩
  rcases lt_trichotomy j i with hlower | rfl | hupper
  · exact not_lt_self _ (lt_of_lt_of_lt hlt (hbefore j hlower))
  · exact not_lt_self _ hlt
  · exact hafter j hj hupper hlt

/-- **A choice depends only on which colours are in use**, not on the order in
which they are listed, and not on texts that are no colours. -/
theorem chooseColor_congr
    (hsame : ∀ text, (Hsb.ofHex? text).isSome → (text ∈ inUse ↔ text ∈ other)) (words : Words)
    (position : Nat) : chooseColor words position inUse = chooseColor words position other := by
  have hcolors : ∀ color,
      color ∈ inUse.filterMap Hsb.ofHex? ↔ color ∈ other.filterMap Hsb.ofHex? := by
    intro color
    rw [List.mem_filterMap, List.mem_filterMap]
    refine exists_congr fun text => and_congr_left fun hcolor => hsame text ?_
    rw [hcolor, Option.isSome_some]
  by_cases hnil : inUse.filterMap Hsb.ofHex? = []
  · have hother : other.filterMap Hsb.ofHex? = [] := by
      rw [List.eq_nil_iff_forall_not_mem] at hnil ⊢
      exact fun color hcolor => hnil color ((hcolors color).2 hcolor)
    rw [chooseColor_of_eq_nil hnil, chooseColor_of_eq_nil hother]
  · have hother : other.filterMap Hsb.ofHex? ≠ [] := by
      obtain ⟨color, hcolor⟩ := List.exists_mem_of_ne_nil _ hnil
      exact List.ne_nil_of_mem ((hcolors color).1 hcolor)
    rw [chooseColor_of_ne_nil hnil, chooseColor_of_ne_nil hother,
      farthest_congr (clearance_lt_congr hcolors)]

/-! ### Drawing -/

namespace Generator

variable {γ : Type} (next : StateM γ UInt32)

theorem draw_run (state : γ) (position : Nat) :
    (draw next).run (advance next position state) =
      (drawColor (Words.drawn next state) position,
        advance next (position + wordsPerColor) state) :=
  rfl

/-- Drawing keeps the best of the candidates. -/
theorem search_run (score : Hsb → Float32) (tries : Nat) (best : Option (Float32 × Hsb))
    (state : γ) (position : Nat) :
    (search next score tries best).run (advance next position state) =
      (((List.range tries).map (candidate (Words.drawn next state) position)).foldl
          (keepBest score) best,
        advance next (position + wordsPerColor * tries) state) := by
  induction tries generalizing best position with
  | zero => rfl
  | succ tries ih =>
      have hbehind : ∀ count, position + wordsPerColor * (count + 1) =
          position + wordsPerColor + wordsPerColor * count := fun count => by
        rw [Nat.mul_succ]
        omega
      have hrest : candidate (Words.drawn next state) (position + wordsPerColor) =
          fun i => candidate (Words.drawn next state) position (i + 1) := by
        funext i
        rw [candidate, candidate, hbehind]
      rw [search, StateT.run_bind, draw_run]
      change (search next score tries _).run _ = _
      rw [ih, hrest, hbehind, List.range_succ_eq_map, List.map_cons, List.map_map, List.foldl_cons]
      rfl

/-- The best so far is the farthest so far. -/
theorem foldl_keepBest (score : Hsb → Float32) (best : Hsb) (colors : List Hsb) :
    let chosen := farthest score (best, score best) colors
    colors.foldl (keepBest score) (some (score best, best)) = some (score chosen, chosen) := by
  induction colors generalizing best with
  | nil => rfl
  | cons color colors ih =>
      simp only [List.foldl_cons, keepBest, farthest, Option.all_some, decide_eq_true_eq]
      by_cases hbetter : score best < score color
      · simp only [hbetter, if_true]
        exact ih color
      · simp only [hbetter, if_false]
        exact ih best

/-- **A generator chooses as its words say** and goes on behind the words that
the choice took. -/
theorem generate_run (state : γ) (position : Nat) (inUse : List String) :
    let chosen := chooseColor (Words.drawn next state) position inUse
    (generate next inUse).run (advance next position state) =
      (chosen.1, advance next chosen.2 state) := by
  intro chosen
  by_cases hnil : inUse.filterMap Hsb.ofHex? = []
  · rw [generate, hnil]
    simp only [List.isEmpty_nil, if_true, StateT.run_bind, draw_run]
    simp only [chosen, chooseColor_of_eq_nil hnil]
    rfl
  · have hempty : (inUse.filterMap Hsb.ofHex?).isEmpty = false := by simpa using hnil
    have hsearch := search_run next (clearance (inUse.filterMap Hsb.ofHex?)) candidateCount none
      state position
    rw [map_range_candidate, List.foldl_cons, keepBest, Option.all_none, if_pos rfl,
      foldl_keepBest] at hsearch
    rw [generate]
    simp only [hempty, Bool.false_eq_true, if_false, StateT.run_bind, hsearch]
    simp only [chosen, chooseColor_of_ne_nil hnil]
    rfl

end Generator

end CallerGraph
