import TankArena.Ordnance
import TankArena.Random.Source
import TankArena.Settings.Basic
import TankArena.Tank
import TankArena.Text.Blank
import TankArena.Geometry

/-!
# The world

A world holds everything that is in play and the source of the places where things appear.  It
never looks at a clock: whatever depends on time is told the instant.

Things of one kind are kept in a table, in the order in which they are visited.  Projectiles,
beams and power-ups take their ids from one counter that never gives out zero.
-/

namespace TankArena

/-- All that is in play. -/
structure World (K : Type) where
  /-- Ticks so far.  The count is taken as unbounded: no game lasts until a 64-bit word is full. -/
  ticks : Nat
  /-- The edge of the square world. -/
  size : Nat
  /-- The time that has to pass between two projectiles of a tank. -/
  fireCooldown : Nat
  /-- The time after which the dead come back. -/
  respawnDelay : Nat
  walls : List (Wall K)
  tanks : List (Tank K)
  projectiles : List (Projectile K)
  powerUps : List (PowerUp K)
  beams : List (Beam K)
  source : Source
  /-- The id of the next projectile, beam or power-up. -/
  nextObject : UInt32
  deriving Repr

namespace World

variable {K : Type} [Scalar K]

/-- Half the edge of the world. -/
def half (w : World K) : K := (w.size : K) / 2.0

/-- The boxes of the walls. -/
def boxes (w : World K) : List (WallBox K) := w.walls.map fun r => WallBox.ofSegment r.p1 r.p2

/-! ## 1. Beginning -/

/-- The id after an id: the next word, leaving out zero. -/
def idAfter (id : UInt32) : UInt32 := if id + 1 = 0 then 1 else id + 1

/-- The world with one more power-up. -/
def addPowerUp (w : World K) : World K :=
  let (location, source) := w.source.place w.half
  { w with
    powerUps := Table.put (PowerUp.fresh w.nextObject location) w.powerUps
    source := source
    nextObject := idAfter w.nextObject }

/-- The world with several more power-ups. -/
def addPowerUps : Nat → World K → World K
  | 0, w => w
  | n + 1, w => addPowerUps n w.addPowerUp

/-- The world of some settings, without anything in play. -/
def empty (settings : Settings K) (source : Source) : World K where
  ticks := 0
  size := settings.universeSize
  fireCooldown := Time.ofMillis settings.fireCooldownMs
  respawnDelay := Time.ofMillis settings.respawnRateMs
  walls := settings.wallRecords
  tanks := []
  projectiles := []
  powerUps := []
  beams := []
  source := source
  nextObject := 1

/-- The world of some settings at its beginning, with its power-ups in place. -/
def ofSettings (settings : Settings K) (source : Source) : World K :=
  (empty settings source).addPowerUps settings.maxPowerUps

/-! ## 2. Coming and going -/

/-- The tank with an id. -/
def tank? (w : World K) (id : UInt32) : Option (Tank K) := Table.find? id w.tanks

/-- The world with a new tank somewhere, and whether there is one: an id that is in use already
changes nothing. -/
def join (id : UInt32) (name : String) (w : World K) : World K × Bool :=
  if Table.has id w.tanks then (w, false)
  else
    let (location, source) := w.source.place w.half
    ({ w with
        tanks := Table.put (Tank.fresh id (Text.trim name) location) w.tanks
        source := source },
      true)

/-- The world after the player of a tank has gone.  The tank stays for its last report. -/
def disconnect (id : UInt32) (w : World K) : World K :=
  { w with tanks := Table.modify id Tank.disconnect w.tanks }

/-- The world after its tanks were reported, and the ids of the tanks that left it: those whose
players have gone. -/
def purge (w : World K) : World K × List UInt32 :=
  ({ w with
      tanks := (w.tanks.filter fun t => !t.disconnected).map fun t => { t with joined := false } },
    (w.tanks.filter fun t => t.disconnected).map Tank.id)

end World

end TankArena
