import TankArena.Record

/-!
# Settings of an arena

Settings are fixed before a world is built.  They are accepted when the world has an edge, a tick
has a length and every wall runs along an axis (`fault?` is `none`); the first fault in that order
is the one that is named.
-/

namespace TankArena

/-- A wall as settings give it: its two ends. -/
structure Segment (K : Type) where
  p1 : Vec K
  p2 : Vec K
  deriving Repr

/-- What is fixed about a world before it is built. -/
structure Settings (K : Type) where
  /-- The edge of the square world. -/
  universeSize : Nat := 2000
  msPerFrame : Nat := 17
  fireCooldownMs : Nat := 250
  respawnRateMs : Nat := 3000
  maxPowerUps : Nat := 5
  walls : List (Segment K) := []
  deriving Repr

namespace Settings

variable {K : Type} [Scalar K]

/-! ## 1. Acceptance -/

/-- Why settings are not accepted. -/
inductive Fault (K : Type) where
  /-- The world has no edge. -/
  | noSize
  /-- A tick has no length. -/
  | noTick
  /-- The wall at this index runs along no axis. -/
  | slanted (index : Nat) (wall : Segment K)
  deriving Repr

/-- Whether a wall runs along no axis. -/
def isSlanted (wall : Segment K) : Bool :=
  !Scalar.same wall.p1.x wall.p2.x && !Scalar.same wall.p1.y wall.p2.y

/-- The first wall from index `i` on that runs along no axis. -/
def slantedFrom? : Nat → List (Segment K) → Option (Fault K)
  | _, [] => none
  | i, wall :: walls => if isSlanted wall then some (.slanted i wall) else slantedFrom? (i + 1) walls

/-- The first fault of the settings. -/
def fault? (s : Settings K) : Option (Fault K) :=
  if s.universeSize = 0 then some .noSize
  else if s.msPerFrame = 0 then some .noTick
  else slantedFrom? 0 s.walls

/-! ## 2. Walls -/

/-- The walls from index `i` on, numbered. -/
def numberFrom : Nat → List (Segment K) → List (Wall K)
  | _, [] => []
  | i, wall :: walls => ⟨UInt32.ofNat i, wall.p1, wall.p2⟩ :: numberFrom (i + 1) walls

/-- The walls in the order of the settings, numbered from zero. -/
def wallRecords (s : Settings K) : List (Wall K) := numberFrom 0 s.walls

end Settings

end TankArena
