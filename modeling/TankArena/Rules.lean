import TankArena.Scalar

/-!
# The fixed quantities of the game

Lengths are world units, times are milliseconds where the name says so.
-/

namespace TankArena.Rules

variable {K : Type} [Scalar K]

/-- How far a tank drives in one tick. -/
def tankSpeed : K := 3.0

/-- How far a projectile flies in one tick. -/
def projectileSpeed : K := 30.0

/-- The edge of a tank's box and the diameter of its circle. -/
def tankSize : K := 60.0

/-- The thickness of a wall. -/
def wallSize : K := 50.0

/-- Hit points of a fresh tank. -/
def maxHitPoints : UInt8 := 3

/-- The most beam charges that a tank can carry. -/
def maxAmmo : UInt8 := 2

/-- How long a beam stays in the world, in milliseconds. -/
def beamLifetimeMs : Nat := 200

/-- The TCP service number that an arena listens on unless told otherwise. -/
def serviceNumber : UInt16 := 11000

/-- The most bytes of an unfinished line that are kept between reads. -/
def maxPendingBytes : Nat := 64 * 1024

/-- Snapshots that wait for a client before further ones are dropped. -/
def outboundQueue : Nat := 64

/-- The most bytes that one read of a connection brings. -/
def readBuffer : Nat := 4096

end TankArena.Rules
