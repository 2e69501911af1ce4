import Mathlib.Analysis.Real.Sqrt
import Mathlib.Tactic.Linarith
import Mathlib.Tactic.NormNum
import Mathlib.Tactic.Positivity
import TankArena.Geometry
import TankArena.Random.Source

/-!
# Exact arithmetic

The definitions of the arena over the real numbers, where sums, products and roots are what they are
called.  What is shown here is the arithmetic of a world without rounding; nothing is said of
`Float`.

* Real numbers are all finite and all comparable, so `lesser` and `greater` are the minimum and the
  maximum, and a padded wall is the box around its segment (`WallBox.contains_ofSegment_iff`).
* A coordinate that is beyond an edge by no more than the whole world comes back into it
  (`abs_wrapCoordinate_le`), and one that is further out does not (`lt_wrapCoordinate`).
* A drawn number is between its bounds, and a drawn place in one of the spawn zones
  (`Source.exists_zone_of_place`), well inside the world (`Source.abs_place_le`).
-/

namespace TankArena

noncomputable instance : Scalar ℝ where
  decidableLT := inferInstance
  decidableLE := inferInstance
  sqrt := Real.sqrt
  isFinite _ := true

/-! ## 1. Smaller and larger numbers -/

namespace Scalar

theorem lesser_eq_min (a b : ℝ) : lesser a b = min a b := by
  unfold lesser
  by_cases hab : a ≤ b
  · rw [if_pos hab, min_eq_left hab]
  · rw [if_neg hab, if_pos (le_refl b), min_eq_right (le_of_not_ge hab)]

theorem greater_eq_max (a b : ℝ) : greater a b = max a b := by
  unfold greater
  by_cases hba : b ≤ a
  · rw [if_pos hba, max_eq_left hba]
  · rw [if_neg hba, if_pos (le_refl b), max_eq_right (le_of_not_ge hba)]

end Scalar

/-! ## 2. Lengths and boxes -/

namespace Vec

theorem length_eq (v : Vec ℝ) : v.length = √(v.x * v.x + v.y * v.y) := rfl

theorem abs_x_le_length (v : Vec ℝ) : |v.x| ≤ v.length := by
  rw [length_eq]
  exact Real.abs_le_sqrt (by nlinarith [mul_self_nonneg v.y])

theorem abs_y_le_length (v : Vec ℝ) : |v.y| ≤ v.length := by
  rw [length_eq]
  exact Real.abs_le_sqrt (by nlinarith [mul_self_nonneg v.x])

end Vec

namespace WallBox

/-- **A padded wall** reaches 25 units beyond its segment on each side. -/
theorem contains_ofSegment_iff {p q point : Vec ℝ} :
    (ofSegment p q).contains point = true ↔
      (min p.x q.x - 25 ≤ point.x ∧ point.x ≤ max p.x q.x + 25) ∧
        min p.y q.y - 25 ≤ point.y ∧ point.y ≤ max p.y q.y + 25 := by
  have hpad : (Rules.wallSize / 2.0 : ℝ) = 25 := by norm_num [Rules.wallSize]
  simp only [contains, ofSegment, Scalar.lesser_eq_min, Scalar.greater_eq_max, hpad,
    Bool.and_eq_true, decide_eq_true_iff, and_assoc]

/-- A tank whose middle is in a box overlaps it. -/
theorem overlapsTank_of_contains {box : WallBox ℝ} {center : Vec ℝ}
    (h : box.contains center = true) : box.overlapsTank center = true := by
  have hhalf : (60.0 / 2.0 : ℝ) = 30 := by norm_num
  simp only [contains, Bool.and_eq_true, decide_eq_true_iff] at h
  obtain ⟨⟨⟨hleft, hright⟩, htop⟩, hbottom⟩ := h
  rw [overlapsTank_iff, hhalf]
  refine ⟨?_, ?_, ?_, ?_⟩ <;> linarith

end WallBox

/-! ## 3. Edges -/

/-- **A coordinate comes back into the world** if it is beyond an edge by no more than the edge's
length. -/
theorem abs_wrapCoordinate_le {value half beyond : ℝ} (hbeyond : beyond ≤ 2 * half)
    (h : |value| ≤ half + beyond) : |wrapCoordinate value half| ≤ half := by
  obtain ⟨hlow, hhigh⟩ := abs_le.mp h
  rw [abs_le]
  unfold wrapCoordinate
  dsimp only
  norm_num
  split <;> split <;> constructor <;> linarith

/-- A coordinate that is beyond the edge by more than the edge's length stays outside. -/
theorem lt_wrapCoordinate {value half : ℝ} (hhalf : 0 < half) (h : 3 * half < value) :
    half < wrapCoordinate value half := by
  unfold wrapCoordinate
  dsimp only
  norm_num
  split <;> split <;> linarith

/-! ## 4. Zones and places -/

/-- A zone that is not empty and keeps a tenth of the way from the middle away from the edges. -/
structure Zone.Fits (half : ℝ) (zone : Zone ℝ) : Prop where
  x_lt : zone.xMin < zone.xMax
  y_lt : zone.yMin < zone.yMax
  left : -(9 / 10 * half) ≤ zone.xMin
  right : zone.xMax ≤ 9 / 10 * half
  top : -(9 / 10 * half) ≤ zone.yMin
  bottom : zone.yMax ≤ 9 / 10 * half

theorem Zone.spawn_fits {half : ℝ} (hhalf : 0 < half) (i : Fin 5) :
    (Zone.spawn half i).Fits half := by
  match i with
  | 0 | 1 | 2 | 3 | 4 =>
    constructor <;> simp only [Zone.spawn, Zone.scaled] <;> norm_num <;> linarith

namespace Source

theorem fraction_nonneg (v : UInt64) : (0 : ℝ) ≤ fraction v := by
  unfold fraction
  norm_num
  positivity

/-- **A drawn number is between its bounds.**  It is no less as no fraction is negative, and no more
as that is tested. -/
theorem numberIn_mem {low high : ℝ} (hle : low ≤ high) (tries : Nat) (s : Source) :
    low ≤ (numberIn low high tries s).1 ∧ (numberIn low high tries s).1 ≤ high := by
  induction tries generalizing s with
  | zero => exact ⟨le_refl low, hle⟩
  | succ tries ih =>
    unfold numberIn
    dsimp only
    split
    · rename_i hbelow
      have hmore : 0 ≤ fraction s.next.1 * (high - low) :=
        mul_nonneg (fraction_nonneg s.next.1) (sub_nonneg.mpr hle)
      exact ⟨le_add_of_nonneg_left hmore, le_of_lt hbelow⟩
    · exact ih s.next.2

/-- **A drawn place is in a spawn zone.** -/
theorem exists_zone_of_place {half : ℝ} (hhalf : 0 < half) (s : Source) :
    ∃ i, (Zone.spawn half i).contains (s.place half).1 = true := by
  have hzone := Zone.spawn_fits hhalf (indexIn maxTries s).1
  refine ⟨(indexIn maxTries s).1, ?_⟩
  have hx := numberIn_mem (le_of_lt hzone.x_lt) maxTries (indexIn maxTries s).2
  have hy := numberIn_mem (le_of_lt hzone.y_lt) maxTries (numberIn
    (Zone.spawn half (indexIn maxTries s).1).xMin (Zone.spawn half (indexIn maxTries s).1).xMax
    maxTries (indexIn maxTries s).2).2
  simp only [Zone.contains, Bool.and_eq_true, decide_eq_true_iff]
  exact ⟨⟨⟨hx.1, hx.2⟩, hy.1⟩, hy.2⟩

/-- A drawn place is well inside the world. -/
theorem abs_place_le {half : ℝ} (hhalf : 0 < half) (s : Source) :
    |(s.place half).1.x| ≤ 9 / 10 * half ∧ |(s.place half).1.y| ≤ 9 / 10 * half := by
  obtain ⟨i, hi⟩ := exists_zone_of_place hhalf s
  have hzone := Zone.spawn_fits hhalf i
  simp only [Zone.contains, Bool.and_eq_true, decide_eq_true_iff] at hi
  obtain ⟨⟨⟨hleft, hright⟩, htop⟩, hbottom⟩ := hi
  exact ⟨abs_le.mpr ⟨hzone.left.trans hleft, hright.trans hzone.right⟩,
    abs_le.mpr ⟨hzone.top.trans htop, hbottom.trans hzone.bottom⟩⟩

end Source

end TankArena
