import TankArena.Proofs.Table
import TankArena.World.Tick

/-!
# What a tick can do to a tank or a power-up

A tick walks over the tanks several times, and each walk does one of a few things to a tank.
`Change` lists them, each with the condition under which the tick does it.  The points of the tick
come last and are no `Change`: they are given by `gain`, once, for all deadly hits together
(`Toll.award_eq`).

What holds along a tick is proved once for each kind of change.  `Badge` collects what no change
touches: who the tank is, whether its player has gone, whether it was shown, and its score.
`PowerUp.Change` is the same list for power-ups.
-/

namespace TankArena

open Relation (ReflTransGen)

variable {K : Type}

namespace Tank

@[simp] theorem ident_eq (t : Tank K) : Identified.ident t = t.id := rfl

/-- A tank that is due has its player. -/
theorem not_disconnected_of_isDue {delay : Nat} {now : Time} {t : Tank K}
    (h : t.isDue delay now = true) : t.disconnected = false := by
  unfold isDue at h
  rw [Bool.and_eq_true] at h
  simpa using h.1

/-! ## 1. Points -/

/-- The tank with several more points; the score is a word and comes round past its greatest
value. -/
def gain (n : Nat) (t : Tank K) : Tank K := { t with score := t.score + UInt32.ofNat n }

theorem gain_zero (t : Tank K) : t.gain 0 = t := by
  simp [gain]

theorem gain_addPoint (n : Nat) (t : Tank K) : t.addPoint.gain n = t.gain (n + 1) := by
  have hscore : t.score + 1 + UInt32.ofNat n = t.score + UInt32.ofNat (n + 1) := by
    rw [UInt32.ofNat_add, UInt32.add_assoc, UInt32.add_comm 1]
    rfl
  simp only [gain, addPoint, hscore]

end Tank

/-- **Every deadly hit brings its owner one point.**  The tanks after the points are given are the
tanks before, each with as many points as it had deadly hits. -/
theorem Toll.award_eq (toll : Toll K) :
    toll.award = toll.tanks.map fun t => t.gain (toll.scorers.count t.id) := by
  obtain ⟨tanks, scorers⟩ := toll
  unfold award
  dsimp only
  induction scorers generalizing tanks with
  | nil => simp only [List.count_nil, Tank.gain_zero, List.foldl_nil, List.map_id']
  | cons owner scorers ih =>
    rw [List.foldl_cons, ih (Table.modify owner Tank.addPoint tanks)]
    unfold Table.modify
    rw [List.map_map]
    refine List.map_congr_left fun t _ => ?_
    rw [Function.comp_apply, List.count_cons, Tank.ident_eq]
    by_cases hid : t.id = owner
    · rw [if_pos hid, if_pos (beq_iff_eq.mpr hid.symm)]
      exact Tank.gain_addPoint _ t
    · rw [if_neg hid, if_neg (fun h => hid (beq_iff_eq.mp h).symm), Nat.add_zero]

namespace Tank

/-! ## 2. The badge -/

/-- What a tick leaves alone before the points are given. -/
structure Badge where
  id : UInt32
  name : String
  disconnected : Bool
  joined : Bool
  score : UInt32

/-- The badge of a tank. -/
def badge (t : Tank K) : Badge := ⟨t.id, t.name, t.disconnected, t.joined, t.score⟩

/-! ## 3. Changes -/

variable [Scalar K]

/-- One thing that a tick at an instant can do to a tank. -/
inductive Change (delay : Nat) (now : Time) : Tank K → Tank K → Prop
  /-- A tank that is due comes back somewhere. -/
  | revive {t : Tank K} (location : Vec K) :
      t.isDue delay now = true → Change delay now t (t.revive location)
  /-- The tank moves. -/
  | step (t : Tank K) : Change delay now t t.step
  /-- The tank wraps around the edges of the world. -/
  | wrap (half : K) (t : Tank K) : Change delay now t (t.wrap half)
  /-- Walls undo the tank's move. -/
  | rebound (boxes : List (WallBox K)) (t : Tank K) : Change delay now t (t.rebound boxes)
  /-- A projectile hits the tank. -/
  | damage {t : Tank K} : t.isLive = true → Change delay now t (t.damage now)
  /-- The tank picks up a power-up. -/
  | reload {t : Tank K} : t.isLive = true → Change delay now t t.reload
  /-- A beam hits the tank. -/
  | kill {t : Tank K} : t.isLive = true → Change delay now t (t.kill now)

/-- Any number of changes. -/
abbrev Changes (delay : Nat) (now : Time) : Tank K → Tank K → Prop :=
  ReflTransGen (Change delay now)

/-! ## 4. What no change touches -/

variable {delay : Nat} {now : Time} {t u : Tank K}

theorem Change.badge_eq (h : Change delay now t u) : u.badge = t.badge := by
  cases h with
  | revive | wrap | reload | kill => rfl
  | step =>
    unfold Tank.step
    split
    · rfl
    · split <;> rfl
  | rebound =>
    unfold Tank.rebound
    split <;> rfl
  | damage =>
    unfold Tank.damage
    split <;> rfl

/-- **A tick leaves the badge alone.** -/
theorem Changes.badge_eq (h : Changes delay now t u) : u.badge = t.badge :=
  Table.eq_of_reflTransGen (fun _ _ hchange => hchange.badge_eq) h

theorem Changes.id_eq (h : Changes delay now t u) : u.id = t.id := congrArg Badge.id h.badge_eq

end Tank

/-! ## 5. Power-ups -/

namespace PowerUp

@[simp] theorem ident_eq (p : PowerUp K) : Identified.ident p = p.id := rfl

/-- One thing that a tick at an instant can do to a power-up. -/
inductive Change (delay : Nat) (now : Time) : PowerUp K → PowerUp K → Prop
  /-- A power-up that is due comes back somewhere. -/
  | revive {p : PowerUp K} (location : Vec K) :
      p.isDue delay now = true → Change delay now p (p.revive location)
  /-- A tank picks up the power-up. -/
  | take {p : PowerUp K} : p.died = false → Change delay now p (p.take now)

theorem Change.id_eq {delay : Nat} {now : Time} {p q : PowerUp K} (h : Change delay now p q) :
    q.id = p.id := by
  cases h <;> rfl

end PowerUp

end TankArena
