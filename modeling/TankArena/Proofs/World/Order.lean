import TankArena.Proofs.World.Soundness

/-!
# Worlds in any order

A world keeps its things in tables, and the order of a table is the order in which its things are
visited.  Nobody chooses that order, so whatever is claimed of a world has to hold in every order.

* Two worlds are a `Shuffle` of one another if they differ in the order of their tables only, and a
  `Reordering` chooses a shuffle of every world.
* A world is `Reachable` if operations lead to it from the world of some settings while its tables
  may be put into another order at any moment.  This is every world that there can be, in every
  order in which it can be visited.
* Reachable worlds are sound and have the power-ups that they began with (`reachable_sound`), and
  each of their tables is keyed (`Reachable.indexed`), so a shuffle shows under no id
  (`Shuffle.find?_eq`).
-/

namespace TankArena

open Identified (ident)

/-! ## 1. Tables in another order -/

namespace Table

variable {α : Type} [Identified α]

theorem Keyed.perm {xs ys : List α} (h : Keyed xs) (hp : xs.Perm ys) : Keyed ys :=
  (hp.map ident).nodup_iff.mp h

/-- What is found under an id in a keyed table does not depend on its order. -/
theorem Keyed.find?_perm {xs ys : List α} (h : Keyed xs) (hp : xs.Perm ys) (id : UInt32) :
    find? id ys = find? id xs := by
  ext x
  rw [find?_eq_some_iff h, find?_eq_some_iff (h.perm hp), hp.mem_iff]

end Table

namespace World

open Table (Keyed)

variable {K : Type}

/-! ## 2. Shuffles -/

/-- Two worlds that differ in the order of their tables only. -/
structure Shuffle (w w' : World K) : Prop where
  tanks : w.tanks.Perm w'.tanks
  projectiles : w.projectiles.Perm w'.projectiles
  powerUps : w.powerUps.Perm w'.powerUps
  beams : w.beams.Perm w'.beams
  ticks_eq : w'.ticks = w.ticks
  size_eq : w'.size = w.size
  fireCooldown_eq : w'.fireCooldown = w.fireCooldown
  respawnDelay_eq : w'.respawnDelay = w.respawnDelay
  walls_eq : w'.walls = w.walls
  source_eq : w'.source = w.source
  nextObject_eq : w'.nextObject = w.nextObject

theorem Shuffle.refl (w : World K) : w.Shuffle w :=
  ⟨.refl _, .refl _, .refl _, .refl _, rfl, rfl, rfl, rfl, rfl, rfl, rfl⟩

theorem Shuffle.trans {u v w : World K} (h : u.Shuffle v) (h' : v.Shuffle w) : u.Shuffle w where
  tanks := h.tanks.trans h'.tanks
  projectiles := h.projectiles.trans h'.projectiles
  powerUps := h.powerUps.trans h'.powerUps
  beams := h.beams.trans h'.beams
  ticks_eq := h'.ticks_eq.trans h.ticks_eq
  size_eq := h'.size_eq.trans h.size_eq
  fireCooldown_eq := h'.fireCooldown_eq.trans h.fireCooldown_eq
  respawnDelay_eq := h'.respawnDelay_eq.trans h.respawnDelay_eq
  walls_eq := h'.walls_eq.trans h.walls_eq
  source_eq := h'.source_eq.trans h.source_eq
  nextObject_eq := h'.nextObject_eq.trans h.nextObject_eq

/-- A choice of another order for the tables of a world, which may depend on the world in any way.
-/
structure Reordering (K : Type) where
  apply : World K → World K
  shuffle : ∀ w : World K, w.Shuffle (apply w)

/-- Soundness does not depend on an order. -/
theorem Sound.shuffle [Scalar K] {w w' : World K} (h : w.Sound) (hs : w.Shuffle w') : w'.Sound where
  keyed := h.keyed.perm hs.tanks
  tanks := fun t ht => h.tanks t (hs.tanks.mem_iff.mpr ht)
  powerUps := fun p hp => h.powerUps p (hs.powerUps.mem_iff.mpr hp)

/-! ## 3. Keyed tables of objects -/

/-- No two projectiles, no two power-ups and no two beams have the same id. -/
structure Indexed (w : World K) : Prop where
  projectiles : Keyed w.projectiles
  powerUps : Keyed w.powerUps
  beams : Keyed w.beams

theorem Indexed.shuffle {w w' : World K} (h : w.Indexed) (hs : w.Shuffle w') : w'.Indexed where
  projectiles := h.projectiles.perm hs.projectiles
  powerUps := h.powerUps.perm hs.powerUps
  beams := h.beams.perm hs.beams

theorem Indexed.fire {w : World K} (h : w.Indexed) (id : UInt32) (trigger : Trigger) (now : Time) :
    (w.fire id trigger now).1.Indexed := by
  rcases fire_cases id trigger now w with hnone | ⟨t, _, _, _, _, hmain⟩ | ⟨t, _, _, _, _, halt⟩
  · rw [hnone]
    exact h
  · rw [hmain]
    exact { h with projectiles := h.projectiles.put _ }
  · rw [halt]
    exact { h with beams := h.beams.put _ }

variable [Scalar K]

theorem Indexed.command {w : World K} (h : w.Indexed) (id : UInt32) (c : Command K) (now : Time) :
    (w.command id c now).1.Indexed := by
  rcases command_cases id c now w with hnone | ⟨t, _, _, hcommand⟩
  · rw [hnone]
    exact h
  · rw [hcommand]
    have hobeyed : Indexed { w with tanks := Table.modify id (Tank.obey c) w.tanks } := { h with }
    exact hobeyed.fire id c.trigger now

theorem Indexed.join {w : World K} (h : w.Indexed) (id : UInt32) (name : String) :
    (w.join id name).1.Indexed := by
  rcases join_cases id name w with ⟨_, hsame⟩ | ⟨_, hnew⟩
  · rw [hsame]
    exact h
  · rw [hnew]
    exact { h with }

/-- A projectile that is looked at keeps its id. -/
theorem strike_ident (now : Time) (toll : Toll K) (p : Projectile K) :
    ident (toll.strike now p).1 = ident p := by
  unfold Toll.strike
  split
  · rfl
  · split <;> rfl

theorem tick_projectiles_keyed {w : World K} (h : Keyed w.projectiles) (now : Time) :
    Keyed (w.tick now).projectiles := by
  have hmoved : Keyed (w.moved now).projectiles :=
    ((h.filter _).map (f := Projectile.step) fun _ => rfl).map (f := Projectile.bound w.half)
      fun _ => rfl
  have hwalled : Keyed (w.walled now).projectiles :=
    hmoved.map (f := Projectile.shatter w.boxes) fun _ => rfl
  exact hwalled.of_ids_eq (Table.ids_eq_of_forall₂ (R := fun p q => ident q = ident p)
    (fun _ _ hid => hid) (Table.visit_forall₂ (strike_ident now) _ _))

/-- **Every operation keeps the tables of objects keyed.** -/
theorem Indexed.perform {w : World K} (h : w.Indexed) (op : Operation K) :
    (w.perform op).1.Indexed := by
  cases op with
  | join id name => exact h.join id name
  | disconnect id => exact { h with }
  | command id c now => exact h.command id c now
  | fire id trigger now => exact h.fire id trigger now
  | tick now =>
    have hbeams : Keyed (w.tick now).beams := h.beams.filter (Beam.isFresh now)
    have hpowerUps : Keyed (w.tick now).powerUps :=
      h.powerUps.of_ids_eq (perform_powerUps w (.tick now))
    exact ⟨tick_projectiles_keyed h.projectiles now, hpowerUps, hbeams⟩
  | purge => exact { h with }
  | snapshot => exact { h with }

theorem Indexed.addPowerUps {w : World K} (h : w.Indexed) (n : Nat) : (w.addPowerUps n).Indexed := by
  induction n generalizing w with
  | zero => exact h
  | succ n ih => exact ih { h with powerUps := h.powerUps.put _ }

theorem indexed_ofSettings (settings : Settings K) (source : Source) :
    (ofSettings settings source).Indexed :=
  Indexed.addPowerUps ⟨Table.keyed_nil, Table.keyed_nil, Table.keyed_nil⟩ settings.maxPowerUps

/-! ## 4. Reachable worlds -/

/-- The worlds that operations lead to, whatever the order of their tables at any moment. -/
inductive Reachable (settings : Settings K) (source : Source) : World K → Prop where
  | start : Reachable settings source (ofSettings settings source)
  | perform {w : World K} (op : Operation K) :
      Reachable settings source w → Reachable settings source (w.perform op).1
  | shuffle {w w' : World K} :
      Reachable settings source w → w.Shuffle w' → Reachable settings source w'

variable {settings : Settings K} {source : Source} {w : World K}

theorem Reachable.sound (h : Reachable settings source w) : w.Sound := by
  induction h with
  | start => exact sound_ofSettings settings source
  | perform op _ ih => exact ih.perform op
  | shuffle _ hs ih => exact ih.shuffle hs

theorem Reachable.indexed (h : Reachable settings source w) : w.Indexed := by
  induction h with
  | start => exact indexed_ofSettings settings source
  | perform op _ ih => exact ih.perform op
  | shuffle _ hs ih => exact ih.shuffle hs

theorem Reachable.tick (h : Reachable settings source w) (now : Time) :
    Reachable settings source (w.tick now) := h.perform (.tick now)

/-- A run of operations stays among the reachable worlds. -/
theorem Reachable.run (h : Reachable settings source w) (ops : List (Operation K)) :
    Reachable settings source (w.run ops) :=
  run_invariant (fun _ op hw => hw.perform op) h ops

/-- A shuffle has the same power-ups. -/
theorem Reachable.powerUps (h : Reachable settings source w) :
    (w.powerUps.map PowerUp.id).Perm ((ofSettings settings source).powerUps.map PowerUp.id) := by
  induction h with
  | start => exact List.Perm.refl _
  | @perform w op _ ih =>
    rw [perform_powerUps w op]
    exact ih
  | shuffle _ hs ih => exact (hs.powerUps.symm.map PowerUp.id).trans ih

/-- **Every world that is reached is sound**, in whatever order it was visited.  It has the
power-ups that it began with, which stay where they are in their table unless that is shuffled, and
under an id there is the one tank with that id. -/
theorem reachable_sound (h : Reachable settings source w) :
    w.Sound ∧
      (w.powerUps.map PowerUp.id).Perm ((ofSettings settings source).powerUps.map PowerUp.id) ∧
      (∀ ops, (w.run ops).powerUps.map PowerUp.id = w.powerUps.map PowerUp.id) ∧
      ∀ id t, w.tank? id = some t ↔ t ∈ w.tanks ∧ t.id = id :=
  ⟨h.sound, h.powerUps, run_powerUps w, fun _ _ => Table.find?_eq_some_iff h.sound.keyed⟩

/-- A world with its tanks and its power-ups the other way round. -/
def turned (w : World K) : World K :=
  { w with tanks := w.tanks.reverse, powerUps := w.powerUps.reverse }

omit [Scalar K] in
theorem powerUps_turned (w : World K) : w.turned.powerUps = w.powerUps.reverse := rfl

omit [Scalar K] in
theorem shuffle_turned (w : World K) : w.Shuffle w.turned :=
  { Shuffle.refl w with
    tanks := (List.reverse_perm w.tanks).symm
    powerUps := (List.reverse_perm w.powerUps).symm }

/-- A small world with two power-ups. -/
def gardenSettings : Settings Float := { universeSize := 100, maxPowerUps := 2 }

/-- Two tanks come, one fires, and the other goes. -/
def gardenParty : List (Operation Float) :=
  [.join 1 "ada", .join 2 "bob", .fire 1 .main 1, .tick 2, .disconnect 2, .tick 3]

/-- A world after a game, in another order than the game was played in. -/
theorem reachable_sound_turned :
    let start := ofSettings gardenSettings (Source.ofSeed 8)
    let w := start.run gardenParty
    Reachable gardenSettings (Source.ofSeed 8) w.turned ∧ w.turned.Sound ∧
      w.turned.powerUps.map PowerUp.id = (start.powerUps.map PowerUp.id).reverse := by
  intro start w
  have hstart : Reachable gardenSettings (Source.ofSeed 8) start := Reachable.start
  have hreached := (hstart.run gardenParty).shuffle (shuffle_turned w)
  obtain ⟨_, _, hkept, _⟩ := reachable_sound hstart
  refine ⟨hreached, (reachable_sound hreached).1, ?_⟩
  rw [powerUps_turned, List.map_reverse, hkept gardenParty]

/-- **A shuffle shows under no id.** -/
theorem Shuffle.find?_eq {w' : World K} (hs : w.Shuffle w') (hw : w.Sound) (hi : w.Indexed)
    (id : UInt32) :
    Table.find? id w'.tanks = Table.find? id w.tanks ∧
      Table.find? id w'.projectiles = Table.find? id w.projectiles ∧
      Table.find? id w'.powerUps = Table.find? id w.powerUps ∧
      Table.find? id w'.beams = Table.find? id w.beams :=
  ⟨hw.keyed.find?_perm hs.tanks id, hi.projectiles.find?_perm hs.projectiles id,
    hi.powerUps.find?_perm hs.powerUps id, hi.beams.find?_perm hs.beams id⟩

/-! ## 5. A world to look at -/

/-- A small world without power-ups, in which a tank can fire without waiting. -/
def duelSettings : Settings Float :=
  { universeSize := 100, fireCooldownMs := 0, maxPowerUps := 0 }

/-- Two tanks that stand close, with three projectiles of the first on their way. -/
def duel : World Float :=
  (ofSettings duelSettings (Source.ofSeed 8)).run
    [.join 1 "ada", .join 2 "bob", .fire 1 .main 1, .fire 1 .main 2, .fire 1 .main 3]

theorem reachable_duel : Reachable duelSettings (Source.ofSeed 8) duel := Reachable.start.run _

end World

end TankArena
