import TankArena.World.Fire
import TankArena.World.Motion
import TankArena.World.Collision

/-!
# One tick, and runs of a world

`tick` puts the phases of a tick in order.  An `Operation` is anything that can be done to a
world; doing it gives the world after it and an `Outcome`, so a run is a fold over a list of
operations.
-/

namespace TankArena

namespace World

variable {K : Type} [Scalar K]

/-- The world after one tick. -/
def tick (now : Time) (w : World K) : World K :=
  let w := { w with ticks := w.ticks + 1 }
  let w := w.sweep.respawn now
  let w := (w.moveTanks.moveProjectiles.expireBeams now).enforceBounds
  w.collide now

/-- What a snapshot shows: every tank, then every projectile, power-up and beam. -/
def records (w : World K) : List (Record K) :=
  w.tanks.map (fun t => .tank t.record) ++
    w.projectiles.map (fun p => .projectile p.record) ++
    w.powerUps.map (fun p => .powerUp p.record) ++
    w.beams.map (fun b => .beam b.record)

/-- A snapshot, and the world after it: the tanks of players who have gone were shown for the last
time. -/
def snapshot (w : World K) : World K × List (Record K) := (w.purge.1, w.records)

end World

/-! ## Operations -/

/-- What can be done to a world. -/
inductive Operation (K : Type) where
  | join (id : UInt32) (name : String)
  | disconnect (id : UInt32)
  | command (id : UInt32) (c : Command K) (now : Time)
  | fire (id : UInt32) (trigger : Trigger) (now : Time)
  | tick (now : Time)
  | purge
  | snapshot

/-- What an operation answers. -/
inductive Outcome (K : Type) where
  | done
  /-- Whether a tank was added. -/
  | joined (added : Bool)
  /-- The id of what was fired, if anything was. -/
  | fired (id : Option UInt32)
  /-- The tanks that left the world. -/
  | purged (ids : List UInt32)
  /-- What a snapshot shows. -/
  | shown (records : List (Record K))

namespace World

variable {K : Type} [Scalar K]

/-- The world after an operation, and what the operation answers. -/
def perform (w : World K) : Operation K → World K × Outcome K
  | .join id name =>
    let (w, added) := w.join id name
    (w, .joined added)
  | .disconnect id => (w.disconnect id, .done)
  | .command id c now =>
    let (w, shot) := w.command id c now
    (w, .fired shot)
  | .fire id trigger now =>
    let (w, shot) := w.fire id trigger now
    (w, .fired shot)
  | .tick now => (w.tick now, .done)
  | .purge =>
    let (w, ids) := w.purge
    (w, .purged ids)
  | .snapshot =>
    let (w, records) := w.snapshot
    (w, .shown records)

/-- The world after a run of operations. -/
def run (w : World K) (ops : List (Operation K)) : World K :=
  ops.foldl (fun w op => (w.perform op).1) w

end World

end TankArena
