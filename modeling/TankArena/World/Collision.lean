import TankArena.World.Basic

/-!
# Collisions

In this order: walls undo the moves of tanks and stop projectiles, projectiles hit tanks, tanks
pick up power-ups, beams hit tanks, and at last the points are given.  Each step looks at what is
still live after the ones before it, so one death brings one point at the most.
-/

namespace TankArena

variable {K : Type} [Scalar K]

/-! ## 1. Single things -/

/-- The tank after the walls: a live tank that overlaps one is back where it was before its move. -/
def Tank.rebound (boxes : List (WallBox K)) (t : Tank K) : Tank K :=
  if t.isLive && boxes.any fun box => box.overlapsTank t.location then
    { t with location := t.preMove }
  else t

namespace Projectile

/-- The projectile after the walls: inside one it dies. -/
def shatter (boxes : List (WallBox K)) (p : Projectile K) : Projectile K :=
  { p with died := p.died || boxes.any fun box => box.contains p.location }

/-- Whether the projectile hits a tank: a live tank of another player whose circle it is in. -/
def hits (p : Projectile K) (t : Tank K) : Bool :=
  t.isLive && t.id != p.owner && withinTankRadius t.location p.location

end Projectile

/-- Whether a tank reaches a power-up that can be picked up. -/
def Tank.reaches (t : Tank K) (p : PowerUp K) : Bool :=
  !p.died && withinTankRadius t.location p.location

/-- Whether the beam hits a tank: a live tank of another player whose circle lies ahead. -/
def Beam.hits (b : Beam K) (t : Tank K) : Bool :=
  t.isLive && t.id != b.owner &&
    rayHitsCircle b.origin b.direction t.location (Rules.tankSize / 2.0)

/-! ## 2. Meetings -/

/-- Tanks, and the owners of the deadly hits so far in the order of the hits. -/
structure Toll (K : Type) where
  tanks : List (Tank K)
  scorers : List UInt32

namespace Toll

/-- A live projectile hits the first tank that it can hit, and is spent. -/
def strike (now : Time) (toll : Toll K) (p : Projectile K) : Projectile K × Toll K :=
  if p.died then (p, toll)
  else match toll.tanks.find? p.hits with
    | none => (p, toll)
    | some t =>
      ({ p with died := true },
        { tanks := Table.modify t.id (Tank.damage now) toll.tanks
          scorers := if t.isFrail then toll.scorers ++ [p.owner] else toll.scorers })

/-- A beam kills every tank that it hits. -/
def burn (now : Time) (toll : Toll K) (b : Beam K) : Toll K where
  tanks := toll.tanks.map fun t => if b.hits t then t.kill now else t
  scorers := toll.scorers ++ List.replicate (toll.tanks.countP b.hits) b.owner

/-- The tanks after the points are given, one for each deadly hit whose owner is there. -/
def award (toll : Toll K) : List (Tank K) :=
  toll.scorers.foldl (fun tanks owner => Table.modify owner Tank.addPoint tanks) toll.tanks

end Toll

/-- A live tank picks up every power-up that it reaches, one beam charge for each. -/
def Tank.collect (now : Time) (powerUps : List (PowerUp K)) (t : Tank K) :
    Tank K × List (PowerUp K) :=
  if t.isLive then
    ((powerUps.filter t.reaches).foldl (fun t _ => t.reload) t,
      powerUps.map fun p => if t.reaches p then p.take now else p)
  else (t, powerUps)

/-! ## 3. The world -/

namespace World

/-- Walls undo the moves of tanks. -/
def reboundTanks (w : World K) : World K :=
  { w with tanks := w.tanks.map (Tank.rebound w.boxes) }

/-- Walls stop projectiles. -/
def shatterProjectiles (w : World K) : World K :=
  { w with projectiles := w.projectiles.map (Projectile.shatter w.boxes) }

/-- Projectiles hit tanks; the owners of the deadly hits are kept for later. -/
def strikeTanks (now : Time) (w : World K) : World K × List UInt32 :=
  let (projectiles, toll) := Table.visit (Toll.strike now) ⟨w.tanks, []⟩ w.projectiles
  ({ w with tanks := toll.tanks, projectiles := projectiles }, toll.scorers)

/-- Tanks pick up power-ups. -/
def collectPowerUps (now : Time) (w : World K) : World K :=
  let (tanks, powerUps) := Table.visit (Tank.collect now) w.powerUps w.tanks
  { w with tanks := tanks, powerUps := powerUps }

/-- Beams hit tanks, and the points of the whole tick are given. -/
def burnTanks (now : Time) (scorers : List UInt32) (w : World K) : World K :=
  { w with tanks := (w.beams.foldl (Toll.burn now) ⟨w.tanks, scorers⟩).award }

/-- All collisions of a tick. -/
def collide (now : Time) (w : World K) : World K :=
  let (w, scorers) := w.reboundTanks.shatterProjectiles.strikeTanks now
  (w.collectPowerUps now).burnTanks now scorers

end World

end TankArena
