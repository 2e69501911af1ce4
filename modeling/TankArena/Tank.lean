import TankArena.Command
import TankArena.Record
import TankArena.Rules
import TankArena.Table
import TankArena.Time

/-!
# Tanks

A tank keeps what clients see of it and what they do not: its ammunition, its pending order, the
instants of its last shot and of its death, and the place it would be put back to.  Losing the
last hit point and dying are one event (`kill`), and so are coming back and getting all hit points
(`revive`).
-/

namespace TankArena

/-- A tank. -/
structure Tank (K : Type) where
  id : UInt32
  name : String
  location : Vec K
  /-- Where the body points. -/
  orientation : Vec K
  /-- Where the turret points. -/
  aim : Vec K
  hitPoints : UInt8
  score : UInt32
  died : Bool
  disconnected : Bool
  /-- Whether no snapshot has shown the tank yet. -/
  joined : Bool
  /-- Beam charges. -/
  ammo : UInt8
  /-- The driving asked for last. -/
  drive : Drive
  /-- When the tank last fired a projectile. -/
  lastFire : Option Time
  /-- When the tank died, while it waits to come back. -/
  diedAt : Option Time
  /-- Where the tank was before it moved. -/
  preMove : Vec K
  deriving Repr

namespace Tank

variable {K : Type}

instance : Identified (Tank K) := ⟨Tank.id⟩

/-- Whether the tank takes part in the game. -/
def isLive (t : Tank K) : Bool := !t.died && !t.disconnected

/-! ## 1. Harm -/

/-- The tank at its death. -/
def kill (now : Time) (t : Tank K) : Tank K :=
  { t with hitPoints := 0, died := true, diedAt := some now }

/-- Whether the next hit is the last one. -/
def isFrail (t : Tank K) : Bool := decide (t.hitPoints ≤ 1)

/-- The tank after a hit: one hit point less, and dead without any. -/
def damage (now : Time) (t : Tank K) : Tank K :=
  if t.isFrail then t.kill now else { t with hitPoints := t.hitPoints - 1 }

/-- The tank back in the game at a place, unharmed and without orders. -/
def revive (location : Vec K) (t : Tank K) : Tank K :=
  { t with
    hitPoints := Rules.maxHitPoints
    drive := .hold
    died := false
    diedAt := none
    location := location
    preMove := location }

/-- The tank of a player who has gone: out of the game for good. -/
def disconnect (t : Tank K) : Tank K :=
  { t with disconnected := true, died := true, hitPoints := 0 }

/-! ## 2. Arms and points -/

/-- Whether enough time has passed since the last projectile. -/
def isLoaded (cooldown : Nat) (now : Time) (t : Tank K) : Bool :=
  match t.lastFire with
  | none => true
  | some last => decide (cooldown < now.elapsed last)

/-- The tank with one more beam charge, as far as it can carry it. -/
def reload (t : Tank K) : Tank K :=
  { t with ammo := if t.ammo < Rules.maxAmmo then t.ammo + 1 else Rules.maxAmmo }

/-- The tank with one more point. -/
def addPoint (t : Tank K) : Tank K := { t with score := t.score + 1 }

/-! ## 3. Reports -/

/-- What clients see of the tank. -/
def record (t : Tank K) : TankRecord K where
  id := t.id
  location := t.location
  body := t.orientation
  turret := t.aim
  name := t.name
  hitPoints := t.hitPoints
  score := t.score
  died := t.died
  disconnected := t.disconnected
  joined := t.joined

/-! ## 4. Beginning and orders -/

variable [Scalar K]

/-- A tank that has just come into the world: unharmed, facing up, aiming right. -/
def fresh (id : UInt32) (name : String) (location : Vec K) : Tank K where
  id := id
  name := name
  location := location
  orientation := Vec.up
  aim := Vec.right
  hitPoints := Rules.maxHitPoints
  score := 0
  died := false
  disconnected := false
  joined := true
  ammo := 0
  drive := .hold
  lastFire := none
  diedAt := none
  preMove := location

/-- The tank after a command.  A dead tank takes no driving orders but still turns its turret; an
aim without a direction leaves the turret alone. -/
def obey (c : Command K) (t : Tank K) : Tank K :=
  { t with
    drive := if t.died then t.drive else c.drive
    aim := c.aim.normalized.getD t.aim }

end Tank

end TankArena
