import TankArena.Record
import TankArena.Table
import TankArena.Time

/-!
# Projectiles, beams and power-ups

What tanks fire, and what they pick up to be able to fire it.
-/

namespace TankArena

variable {K : Type}

/-- A shot of the main weapon, flying straight on. -/
structure Projectile (K : Type) where
  id : UInt32
  location : Vec K
  direction : Vec K
  owner : UInt32
  died : Bool
  deriving Repr

namespace Projectile

instance : Identified (Projectile K) := ⟨Projectile.id⟩

/-- What clients see of the projectile. -/
def record (p : Projectile K) : ProjectileRecord K :=
  ⟨p.id, p.location, p.direction, p.died, p.owner⟩

end Projectile

/-- A ray of the second weapon; it stays where it was fired until its time is over. -/
structure Beam (K : Type) where
  id : UInt32
  origin : Vec K
  direction : Vec K
  owner : UInt32
  createdAt : Time
  deriving Repr

namespace Beam

instance : Identified (Beam K) := ⟨Beam.id⟩

/-- What clients see of the beam. -/
def record (b : Beam K) : BeamRecord K := ⟨b.id, b.origin, b.direction, b.owner⟩

end Beam

/-- Something to pick up that is worth one beam. -/
structure PowerUp (K : Type) where
  id : UInt32
  location : Vec K
  died : Bool
  diedAt : Option Time
  deriving Repr

namespace PowerUp

instance : Identified (PowerUp K) := ⟨PowerUp.id⟩

/-- A power-up that can be picked up. -/
def fresh (id : UInt32) (location : Vec K) : PowerUp K := ⟨id, location, false, none⟩

/-- The power-up after it was picked up. -/
def take (now : Time) (p : PowerUp K) : PowerUp K := { p with died := true, diedAt := some now }

/-- The power-up back in the world at a place. -/
def revive (location : Vec K) (p : PowerUp K) : PowerUp K :=
  { p with location := location, died := false, diedAt := none }

/-- What clients see of the power-up. -/
def record (p : PowerUp K) : PowerUpRecord K := ⟨p.id, p.location, p.died⟩

end PowerUp

end TankArena
