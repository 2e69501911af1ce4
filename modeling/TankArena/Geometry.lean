import TankArena.Vec
import TankArena.Rules

/-!
# Hit tests of one tick

Every test looks at end points only: where a tank or a projectile is after its step, where a
beam starts and how it points.  Boxes are strict for tanks (touching is no overlap) and
inclusive for projectiles; a tank's circle is open.
-/

namespace TankArena

variable {K : Type} [Scalar K]

/-! ## 1. Padded walls -/

/-- The box that a wall fills: its segment, padded by half the wall's thickness on each side. -/
structure WallBox (K : Type) where
  left : K
  right : K
  top : K
  bottom : K

namespace WallBox

/-- The box of the wall between two end points, in whichever order they are given. -/
def ofSegment (p q : Vec K) : WallBox K :=
  let pad := Rules.wallSize / 2.0
  { left := Scalar.lesser p.x q.x - pad
    right := Scalar.greater p.x q.x + pad
    top := Scalar.lesser p.y q.y - pad
    bottom := Scalar.greater p.y q.y + pad }

/-- Whether a tank's box around `center` overlaps the wall; touching is no overlap. -/
def overlapsTank (box : WallBox K) (center : Vec K) : Bool :=
  let half := Rules.tankSize / 2.0
  decide (center.x - half < box.right) && decide (box.left < center.x + half) &&
    decide (center.y - half < box.bottom) && decide (box.top < center.y + half)

/-- A tank overlaps a box if the square around its middle meets the inside of the box. -/
theorem overlapsTank_iff {box : WallBox K} {center : Vec K} :
    box.overlapsTank center = true ↔
      center.x - 60.0 / 2.0 < box.right ∧ box.left < center.x + 60.0 / 2.0 ∧
        center.y - 60.0 / 2.0 < box.bottom ∧ box.top < center.y + 60.0 / 2.0 := by
  unfold overlapsTank Rules.tankSize
  simp only [Bool.and_eq_true, decide_eq_true_iff, and_assoc]

/-- Whether a point lies in the box, its edges included. -/
def contains (box : WallBox K) (point : Vec K) : Bool :=
  decide (box.left ≤ point.x) && decide (point.x ≤ box.right) &&
    decide (box.top ≤ point.y) && decide (point.y ≤ box.bottom)

end WallBox

/-! ## 2. Circles and rays -/

/-- Whether a point lies strictly inside the circle of a tank. -/
def withinTankRadius (tank point : Vec K) : Bool :=
  decide ((point - tank).length < Rules.tankSize / 2.0)

/-- Within the circle are the points that are nearer to its middle than half a tank's edge. -/
theorem withinTankRadius_iff {tank point : Vec K} :
    withinTankRadius tank point = true ↔
      Scalar.sqrt ((point.x - tank.x) * (point.x - tank.x) +
        (point.y - tank.y) * (point.y - tank.y)) < 60.0 / 2.0 :=
  decide_eq_true_iff

/-- Whether the ray from `origin` along `dir` hits a circle that lies wholly ahead of it.

With `a = dir·dir`, `b = 2 (origin - center)·dir` and `c = |origin - center|² - radius²` the ray
meets the circle where `a t² + b t + c = 0`.  Only the signs of `-b ± √(b² - 4ac)` matter, so
nothing is divided by `2a`.  A circle that holds the origin is not hit. -/
def rayHitsCircle (origin dir center : Vec K) (radius : K) : Bool :=
  let offset := origin - center
  let a := dir.dot dir
  let b := 2.0 * offset.dot dir
  let c := offset.dot offset - radius * radius
  let disc := b * b - 4.0 * a * c
  if disc < 0.0 then false
  else
    let root := Scalar.sqrt disc
    decide (0.0 < -b + root) && decide (0.0 < -b - root)

/-! ## 3. The edges of the world

A world with half edge `half` spans `[-half, half]` in both coordinates. -/

/-- One coordinate after leaving through an edge and entering at the opposite one by the same
overshoot.  The lower edge is looked at first, so `-half` is carried to `half` and back. -/
def wrapCoordinate (value half : K) : K :=
  let size := half * 2.0
  let lifted := if value ≤ -half then value + size else value
  if half ≤ lifted then lifted - size else lifted

/-- Whether a point is on or beyond an edge of the world. -/
def outOfBounds (point : Vec K) (half : K) : Bool :=
  decide (point.x ≤ -half) || decide (half ≤ point.x) ||
    decide (point.y ≤ -half) || decide (half ≤ point.y)

end TankArena
