import TankArena.Vec

/-!
# Where things appear

Tanks and power-ups appear in one of five rectangles: one along each edge of the world and one
in its middle.  The rectangles scale with the world.
-/

namespace TankArena

/-- A rectangle with its sides along the axes. -/
structure Zone (K : Type) where
  xMin : K
  xMax : K
  yMin : K
  yMax : K

namespace Zone

variable {K : Type} [Scalar K]

/-- Whether a point lies in the rectangle, its sides included. -/
def contains (zone : Zone K) (point : Vec K) : Bool :=
  decide (zone.xMin ≤ point.x) && decide (point.x ≤ zone.xMax) &&
    decide (zone.yMin ≤ point.y) && decide (point.y ≤ zone.yMax)

/-- The rectangle whose sides are given as multiples of half the world's edge. -/
def scaled (half xMin xMax yMin yMax : K) : Zone K :=
  ⟨xMin * half, xMax * half, yMin * half, yMax * half⟩

/-- The zones of a world, the middle one last. -/
def spawn (half : K) : Fin 5 → Zone K
  | 0 => scaled half (-0.9) 0.9 (-0.9) (-0.5)
  | 1 => scaled half (-0.9) 0.9 0.5 0.9
  | 2 => scaled half (-0.7) (-0.5) (-0.5) 0.5
  | 3 => scaled half 0.5 0.7 (-0.5) 0.5
  | 4 => scaled half (-0.16) 0.16 (-0.2) 0.2

end Zone

end TankArena
