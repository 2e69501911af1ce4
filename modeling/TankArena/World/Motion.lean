import TankArena.World.Basic

/-!
# What a tick does before anything collides

In this order: projectiles that were reported dead are swept away, the dead come back, tanks and
projectiles move, old beams fade, and the edges of the world take effect.
-/

namespace TankArena

variable {K : Type} [Scalar K]

/-! ## 1. Single things -/

namespace Tank

/-- Whether a tank is due to come back. -/
def isDue (delay : Nat) (now : Time) (t : Tank K) : Bool :=
  !t.disconnected && t.diedAt.any fun since => decide (delay < now.elapsed since)

/-- The tank after its step: a live tank goes where it was told to and turns its body that way. -/
def step (t : Tank K) : Tank K :=
  if !t.isLive then t
  else match (t.drive.unit? : Option (Vec K)) with
    | none => { t with preMove := t.location }
    | some dir =>
      { t with
        preMove := t.location
        location := t.location + dir.scale Rules.tankSpeed
        orientation := dir }

/-- The tank after wrapping around the edges of the world. -/
def wrap (half : K) (t : Tank K) : Tank K :=
  { t with location := ⟨wrapCoordinate t.location.x half, wrapCoordinate t.location.y half⟩ }

end Tank

/-- Whether a power-up is due to come back. -/
def PowerUp.isDue (delay : Nat) (now : Time) (p : PowerUp K) : Bool :=
  p.diedAt.any fun since => decide (delay < now.elapsed since)

namespace Projectile

/-- The projectile after its step. -/
def step (p : Projectile K) : Projectile K :=
  { p with location := p.location + p.direction.scale Rules.projectileSpeed }

/-- The projectile at the edges of the world: there it dies. -/
def bound (half : K) (p : Projectile K) : Projectile K :=
  { p with died := p.died || outOfBounds p.location half }

end Projectile

/-- Whether a beam is still to be seen. -/
def Beam.isFresh (now : Time) (b : Beam K) : Bool :=
  decide (now.elapsed b.createdAt ≤ Time.ofMillis Rules.beamLifetimeMs)

/-! ## 2. The world -/

namespace World

/-- Projectiles that died in an earlier tick are gone. -/
def sweep (w : World K) : World K :=
  { w with projectiles := w.projectiles.filter fun p => !p.died }

/-- Tanks, and then power-ups, that are due come back, each at a place of its own. -/
def respawn (now : Time) (w : World K) : World K :=
  let (tanks, source) := Table.visit
    (fun (source : Source) (t : Tank K) =>
      if t.isDue w.respawnDelay now then
        let (location, source) := source.place w.half
        (t.revive location, source)
      else (t, source))
    w.source w.tanks
  let (powerUps, source) := Table.visit
    (fun (source : Source) (p : PowerUp K) =>
      if p.isDue w.respawnDelay now then
        let (location, source) := source.place w.half
        (p.revive location, source)
      else (p, source))
    source w.powerUps
  { w with tanks := tanks, powerUps := powerUps, source := source }

/-- Tanks move. -/
def moveTanks (w : World K) : World K := { w with tanks := w.tanks.map Tank.step }

/-- Projectiles move. -/
def moveProjectiles (w : World K) : World K :=
  { w with projectiles := w.projectiles.map Projectile.step }

/-- Beams whose time is over are gone. -/
def expireBeams (now : Time) (w : World K) : World K :=
  { w with beams := w.beams.filter (Beam.isFresh now) }

/-- Tanks wrap around the edges of the world and projectiles die there. -/
def enforceBounds (w : World K) : World K :=
  { w with
    tanks := w.tanks.map (Tank.wrap w.half)
    projectiles := w.projectiles.map (Projectile.bound w.half) }

end World

end TankArena
