import TankArena.Vec

/-!
# What clients are told

A client learns of the world through records: the walls when it joins, and after every tick one
record for each tank, projectile, power-up and beam.
-/

namespace TankArena

/-- A wall: the segment between two points. -/
structure Wall (K : Type) where
  id : UInt32
  p1 : Vec K
  p2 : Vec K
  deriving Repr

/-- A tank as clients see it. -/
structure TankRecord (K : Type) where
  id : UInt32
  location : Vec K
  /-- Where the body points. -/
  body : Vec K
  /-- Where the turret points. -/
  turret : Vec K
  name : String
  hitPoints : UInt8
  score : UInt32
  died : Bool
  disconnected : Bool
  joined : Bool
  deriving Repr

/-- A projectile as clients see it. -/
structure ProjectileRecord (K : Type) where
  id : UInt32
  location : Vec K
  direction : Vec K
  died : Bool
  owner : UInt32
  deriving Repr

/-- A power-up as clients see it. -/
structure PowerUpRecord (K : Type) where
  id : UInt32
  location : Vec K
  died : Bool
  deriving Repr

/-- A beam as clients see it. -/
structure BeamRecord (K : Type) where
  id : UInt32
  origin : Vec K
  direction : Vec K
  owner : UInt32
  deriving Repr

/-- A record of any kind. -/
inductive Record (K : Type) where
  | wall (r : Wall K)
  | tank (r : TankRecord K)
  | projectile (r : ProjectileRecord K)
  | powerUp (r : PowerUpRecord K)
  | beam (r : BeamRecord K)
  deriving Repr

namespace Record

variable {K : Type}

/-- The id of the thing that a record tells of. -/
def id : Record K → UInt32
  | wall r => r.id
  | tank r => r.id
  | projectile r => r.id
  | powerUp r => r.id
  | beam r => r.id

end Record

end TankArena
