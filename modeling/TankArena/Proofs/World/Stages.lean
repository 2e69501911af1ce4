import TankArena.Proofs.Table
import TankArena.Proofs.Tank.Sound

/-!
# The stages of a tick

A tick is one function.  This file gives a name to the world after each of its stages, so that what
is said of a tick can be said of one stage and put together:

* `moved`: swept, the dead are back, everything has moved, and the edges took effect;
* `walled`: walls have undone moves and stopped projectiles;
* `struck`: projectiles have hit tanks;
* `gathered`: tanks have picked up power-ups;
* `toll`: beams have hit tanks, and every deadly hit of the tick has its owner.

`tick_eq` puts them together.  The tanks before and after a tick correspond one by one: what
happened to a tank are `Tank.Changes` and then its points (`tick_tanks`).  Power-ups correspond too
(`tick_powerUps`).
-/

namespace TankArena

open Relation (ReflTransGen)
open Table (Keyed)

variable {K : Type} [Scalar K]

/-- A projectile hits live tanks of other players, those whose circle it is in. -/
theorem Projectile.hits_iff {p : Projectile K} {t : Tank K} :
    p.hits t = true ↔ t.isLive = true ∧ t.id ≠ p.owner ∧
      withinTankRadius t.location p.location = true := by
  simp [hits, and_assoc]

/-- A beam hits live tanks of other players, those whose circle lies ahead. -/
theorem Beam.hits_iff {b : Beam K} {t : Tank K} :
    b.hits t = true ↔ t.isLive = true ∧ t.id ≠ b.owner ∧
      rayHitsCircle b.origin b.direction t.location (Rules.tankSize / 2.0) = true := by
  simp [hits, and_assoc]

/-! ## 1. What harm keeps

A relation between a tank and what becomes of it that no single hit breaks relates the tanks before
and after any number of hits. -/

namespace Toll

variable {now : Time} {R : Tank K → Tank K → Prop}

theorem visit_strike_forall₂ (hrefl : ∀ t, R t t) (htrans : ∀ t u v, R t u → R u v → R t v)
    (hdamage : ∀ t, R t (t.damage now)) (toll : Toll K) (ps : List (Projectile K)) :
    List.Forall₂ R toll.tanks (Table.visit (strike now) toll ps).2.tanks := by
  refine Table.visit_invariant (f := strike now)
    (I := fun toll' => List.Forall₂ R toll.tanks toll'.tanks)
    (fun toll' p h => Table.forall₂_trans htrans h ?_)
    (List.forall₂_same.mpr fun t _ => hrefl t) ps
  unfold strike
  split
  · exact List.forall₂_same.mpr fun t _ => hrefl t
  · split
    · exact List.forall₂_same.mpr fun t _ => hrefl t
    · refine Table.forall₂_map_self (fun t => ?_) toll'.tanks
      split
      · exact hdamage t
      · exact hrefl t

theorem burn_forall₂ (hrefl : ∀ t, R t t) (hkill : ∀ t, R t (t.kill now)) (toll : Toll K)
    (b : Beam K) : List.Forall₂ R toll.tanks (toll.burn now b).tanks := by
  refine Table.forall₂_map_self (fun t => ?_) toll.tanks
  split
  · exact hkill t
  · exact hrefl t

theorem foldl_burn_forall₂ (hrefl : ∀ t, R t t) (htrans : ∀ t u v, R t u → R u v → R t v)
    (hkill : ∀ t, R t (t.kill now)) (bs : List (Beam K)) (toll : Toll K) :
    List.Forall₂ R toll.tanks (bs.foldl (burn now) toll).tanks := by
  induction bs generalizing toll with
  | nil => exact List.forall₂_same.mpr fun t _ => hrefl t
  | cons b bs ih =>
    exact Table.forall₂_trans htrans (burn_forall₂ hrefl hkill toll b) (ih (toll.burn now b))

end Toll

namespace World

/-! ## 2. The stages -/

/-- The world of a tick after everything has moved. -/
def moved (now : Time) (w : World K) : World K :=
  ((({ w with ticks := w.ticks + 1 }.sweep.respawn now).moveTanks.moveProjectiles).expireBeams
    now).enforceBounds

/-- The world of a tick after the walls. -/
def walled (now : Time) (w : World K) : World K := (w.moved now).reboundTanks.shatterProjectiles

/-- The world of a tick after the projectiles, and the owners of the deadly hits so far. -/
def struck (now : Time) (w : World K) : World K × List UInt32 := (w.walled now).strikeTanks now

/-- The world of a tick after the power-ups. -/
def gathered (now : Time) (w : World K) : World K := (w.struck now).1.collectPowerUps now

/-- The tanks of a tick after the beams, and the owners of all its deadly hits. -/
def toll (now : Time) (w : World K) : Toll K :=
  (w.gathered now).beams.foldl (Toll.burn now) ⟨(w.gathered now).tanks, (w.struck now).2⟩

/-- How many deadly hits of a tick are the work of a player. -/
def points (now : Time) (id : UInt32) (w : World K) : Nat := (w.toll now).scorers.count id

/-- **A tick is its stages.** -/
theorem tick_eq (now : Time) (w : World K) :
    w.tick now = { w.gathered now with tanks := (w.toll now).award } := rfl

/-! ## 3. Tanks -/

/-- Tanks that correspond one by one through changes of a tick. -/
abbrev TanksChange (delay : Nat) (now : Time) : List (Tank K) → List (Tank K) → Prop :=
  Table.Evolve (Tank.Change delay now)

theorem TanksChange.keyed {delay : Nat} {now : Time} {ts us : List (Tank K)}
    (h : TanksChange delay now ts us) (hk : Keyed ts) : Keyed us :=
  hk.of_ids_eq (Table.ids_eq_of_forall₂ (fun _ _ hc => Tank.Changes.id_eq hc) h)

theorem respawn_tanks (now : Time) (w : World K) :
    TanksChange w.respawnDelay now w.tanks (w.respawn now).tanks := by
  refine Table.visit_forall₂ (fun source t => ?_) w.source w.tanks
  dsimp only
  split
  · rename_i hdue
    exact ReflTransGen.single (Tank.Change.revive _ hdue)
  · exact ReflTransGen.refl

/-- **Moving.**  A tank comes back if it is due, moves, and wraps around. -/
theorem moved_tanks (now : Time) (w : World K) :
    TanksChange w.respawnDelay now w.tanks (w.moved now).tanks := by
  have hback : TanksChange w.respawnDelay now w.tanks
      ({ w with ticks := w.ticks + 1 }.sweep.respawn now).tanks :=
    respawn_tanks now { w with ticks := w.ticks + 1 }.sweep
  have hmove : TanksChange w.respawnDelay now _
      ({ w with ticks := w.ticks + 1 }.sweep.respawn now).moveTanks.tanks :=
    Table.evolve_map fun t _ => Or.inl (Tank.Change.step t)
  have hwrap : TanksChange w.respawnDelay now _ (w.moved now).tanks :=
    Table.evolve_map fun t _ => Or.inl (Tank.Change.wrap _ t)
  exact (hback.trans hmove).trans hwrap

theorem walled_tanks (delay : Nat) (now : Time) (w : World K) :
    TanksChange delay now (w.moved now).tanks (w.walled now).tanks :=
  Table.evolve_map fun t _ => Or.inl (Tank.Change.rebound _ t)

/-- **One projectile.**  It hits one tank at the most, and that tank is live; on a keyed table no
other tank has the id that is hit. -/
theorem strike_tanks (delay : Nat) (now : Time) {toll : Toll K} (hk : Keyed toll.tanks)
    (p : Projectile K) : TanksChange delay now toll.tanks (toll.strike now p).2.tanks := by
  unfold Toll.strike
  split
  · exact Table.Evolve.refl _ _
  · split
    · exact Table.Evolve.refl _ _
    · rename_i t hfind
      have ht : t ∈ toll.tanks := List.mem_of_find?_eq_some hfind
      have hlive : t.isLive = true := (Projectile.hits_iff.mp (List.find?_some hfind)).1
      refine Table.evolve_map fun u hu => ?_
      by_cases hid : Identified.ident u = t.id
      · rw [if_pos hid]
        have hut : u = t := hk.eq_of_ident_eq hu ht hid
        exact Or.inl (Tank.Change.damage (hut ▸ hlive))
      · rw [if_neg hid]
        exact Or.inr rfl

theorem struck_tanks (delay : Nat) (now : Time) {w : World K} (hk : Keyed w.tanks) :
    TanksChange delay now (w.walled now).tanks (w.struck now).1.tanks := by
  have hstart : Keyed (w.walled now).tanks :=
    (walled_tanks w.respawnDelay now w).keyed ((moved_tanks now w).keyed hk)
  have hall := Table.visit_invariant (f := Toll.strike now)
    (I := fun toll => TanksChange delay now (w.walled now).tanks toll.tanks)
    (fun toll p h => h.trans (strike_tanks delay now (h.keyed hstart) p))
    (s := ⟨(w.walled now).tanks, []⟩) (Table.Evolve.refl _ _) (w.walled now).projectiles
  exact hall

theorem collect_changes (delay : Nat) (now : Time) (powerUps : List (PowerUp K)) (t : Tank K) :
    Tank.Changes delay now t (t.collect now powerUps).1 := by
  unfold Tank.collect
  split
  · rename_i hlive
    -- Loading changes neither flag, so a live tank stays live from one power-up to the next.
    have hload : ∀ (ps : List (PowerUp K)) (u : Tank K), u.isLive = true →
        Tank.Changes delay now u (ps.foldl (fun t _ => t.reload) u) := by
      intro ps
      induction ps with
      | nil => exact fun u _ => ReflTransGen.refl
      | cons p ps ih =>
        intro u hu
        exact ReflTransGen.head (Tank.Change.reload hu) (ih u.reload hu)
    exact hload _ t hlive
  · exact ReflTransGen.refl

theorem gathered_tanks (delay : Nat) (now : Time) (w : World K) :
    TanksChange delay now (w.struck now).1.tanks (w.gathered now).tanks :=
  Table.visit_forall₂ (fun powerUps t => collect_changes delay now powerUps t) _ _

theorem burn_tanks (delay : Nat) (now : Time) (toll : Toll K) (b : Beam K) :
    TanksChange delay now toll.tanks (toll.burn now b).tanks := by
  refine Table.evolve_map fun t _ => ?_
  split
  · rename_i hhits
    exact Or.inl (Tank.Change.kill (Beam.hits_iff.mp hhits).1)
  · exact Or.inr rfl

theorem toll_tanks (delay : Nat) (now : Time) (w : World K) :
    TanksChange delay now (w.gathered now).tanks (w.toll now).tanks := by
  have hall : ∀ (beams : List (Beam K)) (toll : Toll K),
      TanksChange delay now toll.tanks (beams.foldl (Toll.burn now) toll).tanks := by
    intro beams
    induction beams with
    | nil => exact fun toll => Table.Evolve.refl _ _
    | cons b beams ih =>
      exact fun toll => (burn_tanks delay now toll b).trans (ih (toll.burn now b))
  exact hall (w.gathered now).beams ⟨(w.gathered now).tanks, (w.struck now).2⟩

/-- What a tick makes of a tank: it goes through changes and then gets its points. -/
def Ticked (now : Time) (w : World K) (t u : Tank K) : Prop :=
  ∃ v, Tank.Changes w.respawnDelay now t v ∧ u = v.gain (w.points now t.id)

theorem Ticked.id_eq {now : Time} {w : World K} {t u : Tank K} (h : w.Ticked now t u) :
    u.id = t.id := by
  obtain ⟨v, hchanges, rfl⟩ := h
  have hid : v.id = t.id := Tank.Changes.id_eq hchanges
  exact hid

/-- **What a tick does to the tanks.**  They correspond one by one. -/
theorem tick_tanks (now : Time) {w : World K} (hk : Keyed w.tanks) :
    List.Forall₂ (w.Ticked now) w.tanks (w.tick now).tanks := by
  have hchange : TanksChange w.respawnDelay now w.tanks (w.toll now).tanks :=
    (moved_tanks now w).trans ((walled_tanks _ now w).trans ((struck_tanks _ now hk).trans
      ((gathered_tanks _ now w).trans (toll_tanks _ now w))))
  have haward : (w.tick now).tanks
      = (w.toll now).tanks.map fun t => t.gain ((w.toll now).scorers.count t.id) :=
    Toll.award_eq (w.toll now)
  rw [haward, List.forall₂_map_right_iff]
  refine List.Forall₂.imp (fun t v htv => ⟨v, htv, ?_⟩) hchange
  rw [Tank.Changes.id_eq htv]
  rfl

/-- A tank gets its points after all that happens to it. -/
theorem tick_tank? (now : Time) (id : UInt32) (w : World K) :
    (w.tick now).tank? id = (Table.find? id (w.toll now).tanks).map (Tank.gain (w.points now id)) := by
  have haward : (w.tick now).tanks
      = (w.toll now).tanks.map fun t => t.gain ((w.toll now).scorers.count t.id) :=
    Toll.award_eq (w.toll now)
  have hgain : ∀ t : Tank K, Identified.ident (t.gain ((w.toll now).scorers.count t.id))
      = Identified.ident t := fun _ => rfl
  unfold tank?
  rw [haward, Table.find?_map hgain]
  refine Option.map_congr fun t ht => ?_
  have hid : t.id = id := Table.ident_of_find? ht
  rw [hid]
  rfl

theorem tick_keyed (now : Time) {w : World K} (hk : Keyed w.tanks) : Keyed (w.tick now).tanks :=
  hk.of_ids_eq (Table.ids_eq_of_forall₂ (fun _ _ h => Ticked.id_eq h) (tick_tanks now hk))

/-! ## 4. Power-ups -/

/-- Power-ups that correspond one by one through changes of a tick. -/
abbrev PowerUpsChange (delay : Nat) (now : Time) : List (PowerUp K) → List (PowerUp K) → Prop :=
  Table.Evolve (PowerUp.Change delay now)

theorem moved_powerUps (now : Time) (w : World K) :
    PowerUpsChange w.respawnDelay now w.powerUps (w.moved now).powerUps := by
  refine Table.visit_forall₂ (fun source p => ?_) _ w.powerUps
  dsimp only
  split
  · rename_i hdue
    exact ReflTransGen.single (PowerUp.Change.revive _ hdue)
  · exact ReflTransGen.refl

theorem collect_powerUps (delay : Nat) (now : Time) (powerUps : List (PowerUp K)) (t : Tank K) :
    PowerUpsChange delay now powerUps (t.collect now powerUps).2 := by
  unfold Tank.collect
  split
  · refine Table.evolve_map fun p _ => ?_
    split
    · rename_i hreach
      unfold Tank.reaches at hreach
      rw [Bool.and_eq_true] at hreach
      exact Or.inl (PowerUp.Change.take (by simpa using hreach.1))
    · exact Or.inr rfl
  · exact Table.Evolve.refl _ _

/-- **What a tick does to the power-ups.** -/
theorem tick_powerUps (now : Time) (w : World K) :
    PowerUpsChange w.respawnDelay now w.powerUps (w.tick now).powerUps := by
  have hgather := Table.visit_invariant (f := Tank.collect now)
    (I := PowerUpsChange w.respawnDelay now w.powerUps)
    (fun powerUps t h => h.trans (collect_powerUps w.respawnDelay now powerUps t))
    (s := (w.moved now).powerUps) (moved_powerUps now w) (w.struck now).1.tanks
  exact hgather

end World

end TankArena
