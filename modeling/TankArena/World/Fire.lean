import TankArena.World.Basic

/-!
# Commands and fire

A command changes the intent of one tank and then pulls its trigger.  A projectile needs the time
since the last one to exceed the cooldown; a beam costs one charge.  What is fired starts at the
tank and flies along its aim.
-/

namespace TankArena.World

variable {K : Type} [Scalar K]

/-- The world with a new projectile of a tank, and its id. -/
def launch (t : Tank K) (w : World K) : World K × UInt32 :=
  ({ w with
      projectiles := Table.put ⟨w.nextObject, t.location, t.aim, t.id, false⟩ w.projectiles
      nextObject := idAfter w.nextObject },
    w.nextObject)

/-- The world with a new beam of a tank, and its id. -/
def shine (t : Tank K) (now : Time) (w : World K) : World K × UInt32 :=
  ({ w with
      beams := Table.put ⟨w.nextObject, t.location, t.aim, t.id, now⟩ w.beams
      nextObject := idAfter w.nextObject },
    w.nextObject)

/-- The world after a tank has pulled its trigger, and the id of what it fired, if it did. -/
def fire (id : UInt32) (trigger : Trigger) (now : Time) (w : World K) : World K × Option UInt32 :=
  match w.tank? id with
  | none => (w, none)
  | some t =>
    if !t.isLive then (w, none)
    else match trigger with
      | .idle => (w, none)
      | .main =>
        if t.isLoaded w.fireCooldown now then
          let fired := fun (t : Tank K) => { t with lastFire := some now }
          let (w, shot) := { w with tanks := Table.modify id fired w.tanks }.launch t
          (w, some shot)
        else (w, none)
      | .alt =>
        if t.ammo = 0 then (w, none)
        else
          let spent := fun (t : Tank K) => { t with ammo := t.ammo - 1 }
          let (w, beam) := { w with tanks := Table.modify id spent w.tanks }.shine t now
          (w, some beam)

/-- The world after a command to a tank, and the id of what the tank fired, if it did.  Tanks whose
players have gone take no commands. -/
def command (id : UInt32) (c : Command K) (now : Time) (w : World K) : World K × Option UInt32 :=
  match w.tank? id with
  | none => (w, none)
  | some t =>
    if t.disconnected then (w, none)
    else { w with tanks := Table.modify id (Tank.obey c) w.tanks }.fire id c.trigger now

end TankArena.World
