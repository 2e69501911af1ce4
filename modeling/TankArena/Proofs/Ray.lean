import TankArena.Proofs.Exact

/-!
# Rays and circles

The test of a beam against a circle solves no equation.  Along the ray the squared distance from the
center, less the squared radius, is a polynomial `a t² + b t + c`, and the test asks for the signs
of `-b ± √(b² - 4ac)` alone.  Over exact arithmetic this is what they tell:

* if both are positive, then so is `c`, and the polynomial falls to zero or below at `-b / 2a`; if
  `c` is positive and the polynomial is not positive somewhere ahead, then `b` is negative, and the
  root is smaller than `-b` (`lower_root_pos_iff`).  A direction of length zero has `b = 0` and hits
  nothing;
* a positive `c` says that the origin is strictly outside the circle, and a value that is not
  positive that the place there is within the radius (`Vec.lt_length_iff`, `Vec.length_le_iff`).

So a ray hits a circle exactly when it starts strictly outside and comes within the radius further
on (`rays_hit_ahead`).  How long the direction is does not matter, and touching is enough.
-/

namespace TankArena

/-! ## 1. Polynomials -/

/-- **The lower root of a polynomial is positive** exactly when it starts positive and does not stay
so.  Without its first coefficient it has no slope either, and no root. -/
theorem lower_root_pos_iff {a b c : ℝ} (ha : 0 ≤ a) (hflat : a = 0 → b = 0) :
    (0 ≤ b * b - 4 * a * c ∧ 0 < -b - √(b * b - 4 * a * c)) ↔
      0 < c ∧ ∃ t, 0 < t ∧ a * t * t + b * t + c ≤ 0 := by
  constructor
  · rintro ⟨hdisc, hlower⟩
    have hroot := Real.sqrt_nonneg (b * b - 4 * a * c)
    have hsquare := Real.mul_self_sqrt hdisc
    have hproduct : 0 < a * c := by nlinarith
    have hpos : 0 < a := lt_of_le_of_ne ha fun hzero => by
      rw [← hzero, zero_mul] at hproduct
      exact lt_irrefl 0 hproduct
    refine ⟨pos_of_mul_pos_right hproduct ha, -b / (2 * a), by apply div_pos <;> linarith, ?_⟩
    have hvertex : a * (-b / (2 * a)) * (-b / (2 * a)) + b * (-b / (2 * a)) + c
        = -(b * b - 4 * a * c) / (4 * a) := by
      field_simp
      ring
    rw [hvertex]
    exact div_nonpos_of_nonpos_of_nonneg (by linarith) (by linarith)
  · rintro ⟨hc, t, ht, hbelow⟩
    have hslope : b < 0 := by
      by_contra hb
      have hrises : 0 ≤ b * t := mul_nonneg (not_lt.mp hb) ht.le
      have hsquare : 0 ≤ a * t * t := mul_nonneg (mul_nonneg ha ht.le) ht.le
      linarith
    have hpos : 0 < a := lt_of_le_of_ne ha fun hzero => by
      rw [hflat hzero.symm] at hslope
      exact lt_irrefl 0 hslope
    have hdisc : 0 ≤ b * b - 4 * a * c := by
      have hcomplete : (2 * a * t + b) * (2 * a * t + b)
          = b * b - 4 * a * c + 4 * a * (a * t * t + b * t + c) := by ring
      have hnonpos : 4 * a * (a * t * t + b * t + c) ≤ 0 :=
        mul_nonpos_of_nonneg_of_nonpos (by linarith) hbelow
      linarith [mul_self_nonneg (2 * a * t + b)]
    refine ⟨hdisc, sub_pos.mpr ((Real.sqrt_lt' (neg_pos.mpr hslope)).mpr ?_)⟩
    have hproduct : 0 < a * c := mul_pos hpos hc
    nlinarith

/-! ## 2. Distances -/

namespace Vec

theorem dot_self_nonneg (v : Vec ℝ) : 0 ≤ v.dot v :=
  add_nonneg (mul_self_nonneg v.x) (mul_self_nonneg v.y)

theorem dot_self_eq_zero_iff (v : Vec ℝ) : v.dot v = 0 ↔ v = zero := by
  rw [dot, mul_self_add_mul_self_eq_zero]
  cases v
  simp [zero]
  norm_num

theorem length_le_iff {v : Vec ℝ} {r : ℝ} (hr : 0 ≤ r) : v.length ≤ r ↔ v.dot v ≤ r * r := by
  rw [length, ← sq]
  exact Real.sqrt_le_left hr

theorem lt_length_iff {v : Vec ℝ} {r : ℝ} (hr : 0 ≤ r) : r < v.length ↔ r * r < v.dot v := by
  rw [← not_le, ← not_le, length_le_iff hr]

/-- The squared distance along a ray. -/
theorem dot_along (origin dir center : Vec ℝ) (t : ℝ) :
    (origin + dir.scale t - center).dot (origin + dir.scale t - center)
      = dir.dot dir * t * t + 2 * (origin - center).dot dir * t
        + (origin - center).dot (origin - center) := by
  simp only [dot, add_x, add_y, sub_x, sub_y, scale_x, scale_y]
  ring

end Vec

/-! ## 3. Rays -/

/-- The test is one of the lower sign: if that is positive, then so is the upper one. -/
theorem rayHitsCircle_iff {origin dir center : Vec ℝ} {radius a b c : ℝ} (ha : dir.dot dir = a)
    (hb : 2 * (origin - center).dot dir = b)
    (hc : (origin - center).dot (origin - center) - radius * radius = c) :
    rayHitsCircle origin dir center radius = true ↔
      0 ≤ b * b - 4 * a * c ∧ 0 < -b - √(b * b - 4 * a * c) := by
  have hnumerals : (2.0 : ℝ) = 2 ∧ (4.0 : ℝ) = 4 ∧ (0.0 : ℝ) = 0 := by norm_num
  obtain ⟨htwo, hfour, hzero⟩ := hnumerals
  have htest : rayHitsCircle origin dir center radius
      = if b * b - 4 * a * c < 0 then false
        else decide (0 < -b + √(b * b - 4 * a * c)) && decide (0 < -b - √(b * b - 4 * a * c)) := by
    unfold rayHitsCircle
    simp only [htwo, hfour, hzero, ha, hb, hc]
    rfl
  have hroot := Real.sqrt_nonneg (b * b - 4 * a * c)
  rw [htest]
  split
  · rename_i hnone
    simp [not_le.mpr hnone]
  · rename_i hsome
    rw [Bool.and_eq_true, decide_eq_true_iff, decide_eq_true_iff]
    exact ⟨fun h => ⟨not_lt.mp hsome, h.2⟩, fun h => ⟨by linarith [h.2], h.2⟩⟩

/-- **What a ray hits.** -/
theorem rayHitsCircle_iff_ahead {origin dir center : Vec ℝ} {radius : ℝ} (hradius : 0 ≤ radius) :
    rayHitsCircle origin dir center radius = true ↔
      radius < (origin - center).length ∧
        ∃ t, 0 < t ∧ (origin + dir.scale t - center).length ≤ radius := by
  have hflat : dir.dot dir = 0 → 2 * (origin - center).dot dir = 0 := by
    intro hnone
    rw [(Vec.dot_self_eq_zero_iff dir).mp hnone]
    simp only [Vec.dot, Vec.zero]
    norm_num
  rw [rayHitsCircle_iff rfl rfl rfl, lower_root_pos_iff dir.dot_self_nonneg hflat,
    Vec.lt_length_iff hradius, sub_pos]
  refine and_congr_right fun _ => exists_congr fun t => and_congr_right fun _ => ?_
  rw [Vec.length_le_iff hradius, Vec.dot_along]
  constructor <;> intro h <;> linarith

/-- How long the direction is does not matter. -/
theorem rayHitsCircle_scale {origin dir center : Vec ℝ} {radius factor : ℝ} (hradius : 0 ≤ radius)
    (hfactor : 0 < factor) :
    rayHitsCircle origin (dir.scale factor) center radius
      = rayHitsCircle origin dir center radius := by
  have hscale : ∀ t, (dir.scale factor).scale t = dir.scale (factor * t) := by
    intro t
    simp only [Vec.scale, Vec.mk.injEq]
    constructor <;> ring
  rw [Bool.eq_iff_iff, rayHitsCircle_iff_ahead hradius, rayHitsCircle_iff_ahead hradius]
  refine and_congr_right fun _ => ⟨?_, ?_⟩
  · rintro ⟨t, ht, hnear⟩
    exact ⟨factor * t, mul_pos hfactor ht, hscale t ▸ hnear⟩
  · rintro ⟨t, ht, hnear⟩
    refine ⟨t / factor, div_pos ht hfactor, ?_⟩
    rwa [hscale, mul_div_cancel₀ t hfactor.ne']

/-- A ray that touches a circle started outside it: the way to the point of touching is a side of a
right triangle whose longest side leads from the center to the origin. -/
theorem lt_length_of_tangent {origin dir center : Vec ℝ} {t : ℝ} (ht : 0 < t)
    (hdir : dir ≠ Vec.zero) (htangent : (origin + dir.scale t - center).dot dir = 0) :
    (origin + dir.scale t - center).length < (origin - center).length := by
  have hpos : 0 < dir.dot dir :=
    lt_of_le_of_ne dir.dot_self_nonneg fun hzero =>
      hdir ((Vec.dot_self_eq_zero_iff dir).mp hzero.symm)
  have htriangle : (origin - center).dot (origin - center)
      = (origin + dir.scale t - center).dot (origin + dir.scale t - center)
        - 2 * t * (origin + dir.scale t - center).dot dir + t * t * dir.dot dir := by
    simp only [Vec.dot, Vec.add_x, Vec.add_y, Vec.sub_x, Vec.sub_y, Vec.scale_x, Vec.scale_y]
    ring
  refine Real.sqrt_lt_sqrt (Vec.dot_self_nonneg _) ?_
  rw [htriangle, htangent]
  have hside : 0 < t * t * dir.dot dir := by positivity
  linarith

/-- **Rays hit what lies ahead.**  Over exact arithmetic, a ray hits a circle exactly when it starts
strictly outside and comes within the radius at some place ahead.  The answer is the same for a
direction of any other length, and touching the circle ahead is a hit. -/
theorem rays_hit_ahead {origin dir center : Vec ℝ} {radius : ℝ} (hradius : 0 ≤ radius) :
    (rayHitsCircle origin dir center radius = true ↔
      radius < (origin - center).length ∧
        ∃ t, 0 < t ∧ (origin + dir.scale t - center).length ≤ radius) ∧
    (∀ factor, 0 < factor →
      rayHitsCircle origin (dir.scale factor) center radius
        = rayHitsCircle origin dir center radius) ∧
    ∀ t, 0 < t → dir ≠ Vec.zero → (origin + dir.scale t - center).length = radius →
      (origin + dir.scale t - center).dot dir = 0 →
      rayHitsCircle origin dir center radius = true := by
  refine ⟨rayHitsCircle_iff_ahead hradius, fun factor => rayHitsCircle_scale hradius, ?_⟩
  intro t ht hdir htouches htangent
  have houtside := lt_length_of_tangent ht hdir htangent
  rw [htouches] at houtside
  exact (rayHitsCircle_iff_ahead hradius).mpr ⟨houtside, t, ht, htouches.le⟩

/-- A ray that touches the circle of a tank fifty units ahead and thirty beside it. -/
theorem rays_hit_ahead_tangent :
    (0 : ℝ) ≤ 30 ∧ rayHitsCircle (⟨0, 0⟩ : Vec ℝ) Vec.right ⟨50, 30⟩ 30 = true := by
  have hradius : (0 : ℝ) ≤ 30 := by norm_num
  obtain ⟨-, -, htouch⟩ := @rays_hit_ahead ⟨0, 0⟩ Vec.right ⟨50, 30⟩ 30 hradius
  have hthere : (⟨0, 0⟩ + Vec.right.scale 50 - ⟨50, 30⟩ : Vec ℝ) = ⟨0, -30⟩ := by
    change (⟨0 + 1.0 * 50 - 50, 0 + 0.0 * 50 - 30⟩ : Vec ℝ) = ⟨0, -30⟩
    norm_num
  have hdir : (Vec.right : Vec ℝ) ≠ Vec.zero := by
    intro hsame
    have hx : (1.0 : ℝ) = 0.0 := congrArg Vec.x hsame
    norm_num at hx
  refine ⟨hradius, htouch 50 (by norm_num) hdir ?_ ?_⟩
  · have hsquare : (0 * 0 + -30 * -30 : ℝ) = 30 * 30 := by norm_num
    rw [hthere, Vec.length_eq, hsquare, Real.sqrt_mul_self hradius]
  · rw [hthere]
    change (0 : ℝ) * 1.0 + -30 * 0.0 = 0
    norm_num

end TankArena
