import CallerGraph.Color.Hsb
import Mathlib

/-!
# The order of numbers

Numbers in single precision are compared by sign, then by exponent, then by
mantissa.  `height` puts all this into one place in a line, infinities at its
ends and what is no number above everything, and comparing numbers is comparing
their heights.  Only the two zeros stand at the same height.

Of two numbers `lesser` answers the lower one, so the least of several has one
height in whatever order they are taken.
-/

namespace CallerGraph

open Float.Model

/-- The place in the line: the kind of number, its exponent, its mantissa. -/
def place : UnpackedFloat → ℤ ×ₗ ℤ ×ₗ ℤ
  | .infinity .negative => toLex (-2, toLex (0, 0))
  | .finite .negative mantissa exponent _ => toLex (-1, toLex (-exponent, -(mantissa : ℤ)))
  | .zero _ => toLex (0, toLex (0, 0))
  | .finite .positive mantissa exponent _ => toLex (1, toLex (exponent, (mantissa : ℤ)))
  | .infinity .positive => toLex (2, toLex (0, 0))
  | .notANumber => toLex (3, toLex (0, 0))

theorem compare_eq_lt_iff (a b : UnpackedFloat) :
    a.compare b = some .lt ↔ place a < place b ∧ b.isNaN = false := by
  -- Two kinds of number are told apart by their first places; what is left are
  -- two numbers of one sign, and the two infinities.
  rcases a with (_ | _) | _ | _ | ⟨_ | _, m, e, hm⟩ <;>
    rcases b with (_ | _) | _ | _ | ⟨_ | _, n, k, hn⟩ <;>
    simp [UnpackedFloat.compare, UnpackedFloat.isNaN, place, Prod.Lex.toLex_lt_toLex,
      Ordering.then_eq_lt]
  case infinity.negative.infinity.positive => rfl
  case finite.negative.finite.negative =>
    rw [Ordering.then_eq_gt, compare_gt_iff_gt, compare_gt_iff_gt, compare_eq_iff_eq]
  case finite.positive.finite.positive =>
    rw [compare_lt_iff_lt, compare_lt_iff_lt]

/-- Nothing is above what is no number. -/
theorem place_le_of_isNaN {a : UnpackedFloat} (h : a.isNaN = true) (b : UnpackedFloat) :
    place b ≤ place a := by
  cases a with
  | notANumber =>
      rcases b with (_ | _) | _ | _ | ⟨_ | _, m, e, hm⟩ <;>
        simp [place, Prod.Lex.toLex_le_toLex]
  | _ => cases h

/-- Nothing but what is no number is above infinity. -/
theorem place_le_place_infinity {a : UnpackedFloat} (h : a.isNaN = false) :
    place a ≤ place (.infinity .positive) := by
  rcases a with (_ | _) | _ | _ | ⟨_ | _, m, e, hm⟩
  case notANumber => cases h
  all_goals simp [place, Prod.Lex.toLex_le_toLex]

theorem isNaN_of_place_le {a b : UnpackedFloat} (h : a.isNaN = true) (hle : place a ≤ place b) :
    b.isNaN = true := by
  cases a with
  | notANumber =>
      rcases b with (_ | _) | _ | _ | ⟨_ | _, m, e, hm⟩ <;>
        simp [place, Prod.Lex.toLex_le_toLex, UnpackedFloat.isNaN] at hle ⊢
  | _ => cases h

/-- The place of a number in single precision. -/
def height (x : Float32) : ℤ ×ₗ ℤ ×ₗ ℤ :=
  place x.toModel.unpack

variable {a b c : Float32}

/-- **Comparing numbers is comparing heights.** -/
theorem lt_iff_height : a < b ↔ height a < height b ∧ b.isNaN = false := by
  change decide (a.toModel.lt b.toModel = true) = true ↔ _
  rw [decide_eq_true_iff]
  change (a.toModel.unpack.compare b.toModel.unpack == some .lt) = true ↔ _
  rw [beq_iff_eq]
  exact compare_eq_lt_iff _ _

theorem height_le_of_isNaN (h : a.isNaN = true) (b : Float32) : height b ≤ height a :=
  place_le_of_isNaN h _

theorem isNaN_eq_false_of_height_le (h : height a ≤ height b) (hb : b.isNaN = false) :
    a.isNaN = false := by
  rw [← Bool.not_eq_true]
  intro ha
  have hnan : b.isNaN = true := isNaN_of_place_le ha h
  rw [hb] at hnan
  cases hnan

/-- Between numbers the order is total. -/
theorem not_lt_iff_height (hb : b.isNaN = false) : ¬ a < b ↔ height b ≤ height a := by
  rw [lt_iff_height, and_iff_left hb, not_lt]

theorem not_lt_self (a : Float32) : ¬ a < a := by
  rw [lt_iff_height]
  exact fun h => lt_irrefl _ h.1

theorem lt_of_lt_of_lt (hab : a < b) (hbc : b < c) : a < c := by
  rw [lt_iff_height] at hab hbc ⊢
  exact ⟨hab.1.trans hbc.1, hbc.2⟩

/-- What is below a number is below everything that is not below the number. -/
theorem lt_of_not_lt_of_lt (hb : b.isNaN = false) (hab : ¬ a < b) (hac : a < c) : b < c := by
  rw [not_lt_iff_height hb] at hab
  rw [lt_iff_height] at hac ⊢
  exact ⟨hab.trans_lt hac.1, hac.2⟩

theorem lesser_eq_or (a b : Float32) : lesser a b = a ∨ lesser a b = b := by
  unfold lesser
  split_ifs <;> simp

/-- **The lesser of two has the lesser height.** -/
theorem height_lesser (a b : Float32) : height (lesser a b) = min (height a) (height b) := by
  unfold lesser
  split_ifs with ha hb hlt
  · exact (min_eq_right (height_le_of_isNaN ha b)).symm
  · exact (min_eq_left (height_le_of_isNaN hb a)).symm
  · exact (min_eq_right (lt_iff_height.1 hlt).1.le).symm
  · rw [not_lt_iff_height (by simpa using ha)] at hlt
    exact (min_eq_left hlt).symm

end CallerGraph
