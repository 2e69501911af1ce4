import TankArena.Proofs.World.Contact

/-!
# One tank through a tick

`Tank.Change` says what a tick can do to a tank, in any order and any number of times.  That is
enough for what no change touches, but not for where a tank goes and what it was told.  This file
follows one tank in order.

* It comes back if it is due, and is as it was otherwise (`World.Returns`).
* It makes its step.
* After that a tick can move it and harm it, but changes neither its orders nor where it points
  (`Tank.Settles`).

A relation that nothing after the step breaks is a `Tank.Withstands`, and relates the tanks that
have made their step to those that the tick leaves.  `tank?_tick` puts the three parts together, and
`exists_tried` says where a live tank tries to go and where it is in the end.
-/

namespace TankArena

variable {K : Type} [Scalar K]

namespace Drive

/-- The direction of a driving in components; standing still has none. -/
def heading? : Drive → Option (Vec K)
  | hold => none
  | up => some ⟨0.0, -1.0⟩
  | down => some ⟨0.0, 1.0⟩
  | left => some ⟨-1.0, 0.0⟩
  | right => some ⟨1.0, 0.0⟩

/-- Where a step from a place leads: three times the direction further. -/
def ahead (d : Drive) (location : Vec K) : Vec K :=
  (d.heading?).elim location fun dir => ⟨location.x + dir.x * 3.0, location.y + dir.y * 3.0⟩

theorem unit?_eq (d : Drive) : (d.unit? : Option (Vec K)) = d.heading? := by
  cases d <;> rfl

end Drive

namespace Tank

/-! ## 1. What the end of a tick leaves alone -/

/-- A relation between a tank and what becomes of it that edges, walls, hits and points do not
break. -/
structure Withstands (now : Time) (R : Tank K → Tank K → Prop) : Prop where
  refl : ∀ t, R t t
  trans : ∀ t u v, R t u → R u v → R t v
  wrap : ∀ half t, R t (t.wrap half)
  rebound : ∀ boxes t, R t (t.rebound boxes)
  damage : ∀ t, R t (t.damage now)
  kill : ∀ t, R t (t.kill now)
  gain : ∀ n t, R t (t.gain n)

/-- What a player told a tank, where it points and when it fired last. -/
structure Stance (K : Type) where
  id : UInt32
  disconnected : Bool
  drive : Drive
  aim : Vec K
  orientation : Vec K
  lastFire : Option Time

/-- The stance of a tank. -/
def stance (t : Tank K) : Stance K :=
  ⟨t.id, t.disconnected, t.drive, t.aim, t.orientation, t.lastFire⟩

/-- A tank that keeps its stance and does not come to life. -/
structure Settles (t u : Tank K) : Prop where
  stance_eq : u.stance = t.stance
  live : u.isLive = true → t.isLive = true

omit [Scalar K] in
theorem Settles.id_eq {t u : Tank K} (h : t.Settles u) : u.id = t.id :=
  congrArg Stance.id h.stance_eq

theorem settles_withstands (now : Time) : Withstands now (Settles (K := K)) where
  refl := fun _ => ⟨rfl, fun h => h⟩
  trans := fun _ _ _ htu huv => ⟨huv.stance_eq.trans htu.stance_eq, fun h => htu.live (huv.live h)⟩
  wrap := fun _ _ => ⟨rfl, fun h => h⟩
  rebound := fun boxes t => by
    unfold Tank.rebound
    split <;> exact ⟨rfl, fun h => h⟩
  damage := fun t => by
    refine ⟨?_, (fade_damage now t).live⟩
    unfold Tank.damage
    split <;> rfl
  kill := fun t => ⟨rfl, (fade_kill now t).live⟩
  gain := fun _ _ => ⟨rfl, fun h => h⟩

theorem isLive_step (t : Tank K) : t.step.isLive = t.isLive := by
  unfold step
  split
  · rfl
  · split <;> rfl

/-- **The step of a live tank** goes where the tank was told to, and is remembered. -/
theorem step_of_isLive {t : Tank K} (h : t.isLive = true) :
    t.step.location = t.drive.ahead t.location ∧
      t.step.orientation = (t.drive.heading?).getD t.orientation ∧
      t.step.preMove = t.location := by
  unfold step Drive.ahead
  rw [if_neg (by simp [h]), Drive.unit?_eq]
  cases hdir : (t.drive.heading? : Option (Vec K)) with
  | none => exact ⟨rfl, rfl, rfl⟩
  | some dir => exact ⟨rfl, rfl, rfl⟩

theorem step_of_not_isLive {t : Tank K} (h : t.isLive = false) : t.step = t :=
  if_pos (by simp [h])

/-- A step changes neither the orders of a tank nor its ammunition. -/
theorem step_eq (t : Tank K) :
    ∃ location orientation preMove,
      t.step = { t with location := location, orientation := orientation, preMove := preMove } := by
  unfold step
  split
  · exact ⟨t.location, t.orientation, t.preMove, rfl⟩
  · split
    · exact ⟨t.location, t.orientation, t.location, rfl⟩
    · exact ⟨_, _, t.location, rfl⟩

theorem step_id (t : Tank K) : t.step.id = t.id := by
  obtain ⟨_, _, _, hstep⟩ := t.step_eq
  rw [hstep]

end Tank

namespace World

/-! ## 2. The first part of a tick -/

/-- The world of a tick after the dead came back. -/
def returned (now : Time) (w : World K) : World K :=
  { w with ticks := w.ticks + 1 }.sweep.respawn now

/-- The world of a tick after the tanks have made their steps. -/
def driven (now : Time) (w : World K) : World K := (w.returned now).moveTanks

/-- A tank before a tick and when the dead came back: it was due and is at a place that was drawn
for it, or it was not due and is as it was. -/
def Returns (now : Time) (w : World K) (t b : Tank K) : Prop :=
  if t.isDue w.respawnDelay now then ∃ source : Source, b = t.revive (source.place w.half).1
  else b = t

theorem Returns.same_or_back {now : Time} {w : World K} {t b : Tank K} (h : w.Returns now t b) :
    b = t ∨ ∃ location, b = t.revive location := by
  unfold Returns at h
  split at h
  · obtain ⟨source, rfl⟩ := h
    exact Or.inr ⟨_, rfl⟩
  · exact Or.inl h

theorem Returns.id_eq {now : Time} {w : World K} {t b : Tank K} (h : w.Returns now t b) :
    b.id = t.id := by
  rcases h.same_or_back with rfl | ⟨location, rfl⟩
  · rfl
  · rfl

theorem respawn_returns (now : Time) (w : World K) :
    List.Forall₂ (w.Returns now) w.tanks (w.respawn now).tanks := by
  refine Table.visit_forall₂ (fun source t => ?_) w.source w.tanks
  unfold Returns
  by_cases hdue : t.isDue w.respawnDelay now = true
  · rw [if_pos hdue, if_pos hdue]
    exact ⟨source, rfl⟩
  · rw [if_neg hdue, if_neg hdue]

theorem returned_tanks (now : Time) (w : World K) :
    List.Forall₂ (w.Returns now) w.tanks (w.returned now).tanks :=
  respawn_returns now { w with ticks := w.ticks + 1 }.sweep

theorem moved_tanks_eq (now : Time) (w : World K) :
    (w.moved now).tanks = (w.returned now).tanks.map fun b => b.step.wrap w.half := by
  change List.map _ (List.map _ (w.returned now).tanks) = _
  rw [List.map_map]
  rfl

/-- The tanks of a tick after the walls: each has made its step, around the edges, and is back if a
wall is there. -/
theorem walled_tanks_eq (now : Time) (w : World K) :
    (w.walled now).tanks
      = (w.returned now).tanks.map fun b => (b.step.wrap w.half).rebound w.boxes := by
  change (w.moved now).tanks.map (Tank.rebound w.boxes) = _
  rw [moved_tanks_eq, List.map_map]
  rfl

/-- Steps, edges and walls change where a tank is and how it stands. -/
theorem exists_walled (w : World K) (b : Tank K) : ∃ location orientation preMove,
    (b.step.wrap w.half).rebound w.boxes
      = { b with location := location, orientation := orientation, preMove := preMove } := by
  obtain ⟨_, _, _, hstep⟩ := b.step_eq
  rw [hstep, Tank.wrap, Tank.rebound]
  split
  · exact ⟨_, _, _, rfl⟩
  · exact ⟨_, _, _, rfl⟩

theorem walled_tank? (now : Time) (id : UInt32) (w : World K) :
    (w.walled now).tank? id
      = ((w.returned now).tank? id).map fun b => (b.step.wrap w.half).rebound w.boxes := by
  unfold tank?
  rw [walled_tanks_eq]
  refine Table.find?_map (fun b => ?_) id _
  obtain ⟨_, _, _, hwalled⟩ := exists_walled w b
  rw [hwalled]
  rfl

/-! ## 3. The rest of a tick -/

section Withstands

variable {now : Time} {R : Tank K → Tank K → Prop}

/-- From the step to the power-ups. -/
theorem struck_of_withstands (h : Tank.Withstands now R) (w : World K) :
    List.Forall₂ R (w.driven now).tanks (w.struck now).1.tanks := by
  have hwrap : List.Forall₂ R (w.driven now).tanks (w.moved now).tanks :=
    Table.forall₂_map_self (h.wrap w.half) _
  have hrebound : List.Forall₂ R (w.moved now).tanks (w.walled now).tanks :=
    Table.forall₂_map_self (h.rebound w.boxes) _
  have hstrike : List.Forall₂ R (w.walled now).tanks (w.struck now).1.tanks :=
    Toll.visit_strike_forall₂ h.refl h.trans h.damage ⟨(w.walled now).tanks, []⟩ _
  exact Table.forall₂_trans h.trans hwrap (Table.forall₂_trans h.trans hrebound hstrike)

/-- From the power-ups to the end. -/
theorem tick_of_withstands (h : Tank.Withstands now R) (w : World K) :
    List.Forall₂ R (w.gathered now).tanks (w.tick now).tanks := by
  have hburn : List.Forall₂ R (w.gathered now).tanks (w.toll now).tanks :=
    Toll.foldl_burn_forall₂ h.refl h.trans h.kill (w.gathered now).beams
      ⟨(w.gathered now).tanks, (w.struck now).2⟩
  have haward : List.Forall₂ R (w.toll now).tanks (w.tick now).tanks := by
    rw [tick_eq, Toll.award_eq]
    exact Table.forall₂_map_self (fun t => h.gain _ t) _
  exact Table.forall₂_trans h.trans hburn haward

end Withstands

/-- A tank that has made its step keeps its stance to the end of the tick. -/
theorem driven_settles (now : Time) (w : World K) :
    List.Forall₂ Tank.Settles (w.driven now).tanks (w.tick now).tanks := by
  have hwithstands := Tank.settles_withstands (K := K) now
  have hload : List.Forall₂ Tank.Settles (w.struck now).1.tanks (w.gathered now).tanks := by
    refine Table.visit_forall₂ (fun powerUps t => ?_) _ _
    obtain ⟨ammo, hammo⟩ := t.collect_ammo now powerUps
    rw [hammo]
    exact ⟨rfl, fun h => h⟩
  exact Table.forall₂_trans hwithstands.trans (struck_of_withstands hwithstands w)
    (Table.forall₂_trans hwithstands.trans hload (tick_of_withstands hwithstands w))

/-! ## 4. The whole tick -/

/-- What a tick makes of a tank: it comes back if it is due, makes its step, and settles. -/
def Passes (now : Time) (w : World K) (t u : Tank K) : Prop :=
  ∃ b, (w.returned now).tank? t.id = some b ∧ w.Returns now t b ∧ b.step.Settles u

/-- **A tick passes every tank.** -/
theorem tank?_tick {now : Time} {w : World K} {id : UInt32} {u : Tank K}
    (hu : (w.tick now).tank? id = some u) : ∃ t, w.tank? id = some t ∧ w.Passes now t u := by
  have hsettles : List.Forall₂ (fun b u => b.step.Settles u) (w.returned now).tanks
      (w.tick now).tanks := by
    have hdriven := driven_settles now w
    have hmap : (w.driven now).tanks = (w.returned now).tanks.map Tank.step := rfl
    rwa [hmap, List.forall₂_map_left_iff] at hdriven
  obtain ⟨b, hb, hbu⟩ := Table.exists_found_before
    (fun b u h => (Tank.Settles.id_eq h).trans b.step_id) hsettles hu
  obtain ⟨t, ht, htb⟩ := Table.exists_found_before (fun _ _ h => Returns.id_eq h)
    (returned_tanks now w) hb
  have hid : t.id = id := Table.ident_of_find? ht
  exact ⟨t, ht, b, hid.symm ▸ hb, htb, hbu⟩

/-- Where a place is that lies beyond an edge of the world. -/
def around (w : World K) (location : Vec K) : Vec K :=
  ⟨wrapCoordinate location.x w.half, wrapCoordinate location.y w.half⟩

/-- A tank before a tick and when the dead came back. -/
theorem exists_returned (now : Time) {w : World K} {id : UInt32} {t : Tank K}
    (ht : w.tank? id = some t) : ∃ b, (w.returned now).tank? id = some b ∧ w.Returns now t b :=
  Table.exists_found_after (fun _ _ h => Returns.id_eq h) (returned_tanks now w) ht

/-- **Where a live tank goes** in a tick.  It tries to go where it was told to; it is left there,
around the edges, unless a wall is in its way, and where it was otherwise. -/
theorem exists_tried {now : Time} {w : World K} {id : UInt32} {b : Tank K}
    (hb : (w.returned now).tank? id = some b) (hlive : b.isLive = true) :
    ∃ d u, (w.driven now).tank? id = some d ∧ d.location = b.drive.ahead b.location ∧
      (w.tick now).tank? id = some u ∧
      u.location = if w.boxes.any fun box => box.overlapsTank (w.around d.location) then b.location
        else w.around d.location := by
  have hdriven : (w.driven now).tank? id = some b.step := by
    have hmap := Table.find?_map Tank.step_id id (w.returned now).tanks
    have hfound : Table.find? id (w.returned now).tanks = some b := hb
    rwa [hfound, Option.map_some] at hmap
  have hfade : TanksFade (w.walled now).tanks (w.tick now).tanks :=
    (Toll.visit_strike_fade now ⟨(w.walled now).tanks, []⟩ _).trans
      ((gathered_fade now w).trans ((toll_fade now w).trans (tick_fade now w)))
  have hwalled := walled_tank? now id w
  rw [hb, Option.map_some] at hwalled
  obtain ⟨u, hu, hlanded⟩ :=
    Table.exists_found_after (fun _ _ h => Tank.Fade.id_eq h) hfade hwalled
  obtain ⟨hlocation, _, hpreMove⟩ := Tank.step_of_isLive hlive
  refine ⟨b.step, u, hdriven, hlocation, hu, ?_⟩
  have hstepLive : (b.step.wrap w.half).isLive = true := b.isLive_step.trans hlive
  have hwrapped : (b.step.wrap w.half).location = w.around b.step.location := rfl
  rw [hlanded.location_eq, Tank.rebound, hstepLive, Bool.true_and, hwrapped]
  by_cases hwall : (w.boxes.any fun box => box.overlapsTank (w.around b.step.location)) = true
  · rw [if_pos hwall, if_pos hwall]
    exact hpreMove
  · rw [if_neg hwall, if_neg hwall]
    exact hwrapped

end World

end TankArena
