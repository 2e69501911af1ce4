import TankArena.Proofs.World.Stages

/-!
# No collision is missed

Each kind of collision is looked for once in a tick, one after the other, and what is found later
can change what an earlier look has seen.  This file shows that it changes it in one direction
only.  After the walls no tank moves any more and no tank comes back: a tank can only `Fade`, that
is, stay who and where it is and perhaps die.  So whatever hits no tank when it is looked at hits
no tank at the end of the tick.

* `visit_strike_clear`, `visit_collect_clear`, `foldl_burn_clear`: after all projectiles, all
  tanks that pick up, all beams, none of those that are left touches a tank.
* `tick_leaves_no_contact`: the same for the world after a tick.

Nothing is assumed of the world, neither ids nor the order of a table.
-/

namespace TankArena

variable {K : Type}

/-! ## 1. Tanks that fade -/

/-- A tank that stays who and where it is, and does not come to life. -/
structure Tank.Fade (t u : Tank K) : Prop where
  id_eq : u.id = t.id
  location_eq : u.location = t.location
  live : u.isLive = true → t.isLive = true

namespace Tank

variable {t u v : Tank K}

theorem Fade.refl (t : Tank K) : t.Fade t := ⟨rfl, rfl, fun h => h⟩

theorem Fade.trans (h : t.Fade u) (h' : u.Fade v) : t.Fade v where
  id_eq := h'.id_eq.trans h.id_eq
  location_eq := h'.location_eq.trans h.location_eq
  live := fun hv => h.live (h'.live hv)

theorem fade_kill (now : Time) (t : Tank K) : t.Fade (t.kill now) where
  id_eq := rfl
  location_eq := rfl
  live := fun h => absurd h (by simp [isLive, kill])

theorem fade_damage (now : Time) (t : Tank K) : t.Fade (t.damage now) := by
  unfold damage
  split
  · exact fade_kill now t
  · exact ⟨rfl, rfl, fun h => h⟩

theorem fade_gain (n : Nat) (t : Tank K) : t.Fade (t.gain n) := ⟨rfl, rfl, fun h => h⟩

end Tank

/-- Tanks that fade one by one. -/
abbrev TanksFade : List (Tank K) → List (Tank K) → Prop := List.Forall₂ Tank.Fade

theorem TanksFade.refl (ts : List (Tank K)) : TanksFade ts ts :=
  List.forall₂_same.mpr fun t _ => Tank.Fade.refl t

theorem TanksFade.trans {ts us vs : List (Tank K)} (h : TanksFade ts us) (h' : TanksFade us vs) :
    TanksFade ts vs :=
  Table.forall₂_trans (fun _ _ _ htu huv => htu.trans huv) h h'

/-- What fading keeps holds of all tanks that faded. -/
theorem TanksFade.forall {ts us : List (Tank K)} (h : TanksFade ts us) {P : Tank K → Prop}
    (hP : ∀ t u, t.Fade u → P t → P u) (hts : ∀ t ∈ ts, P t) : ∀ u ∈ us, P u :=
  Table.forall_of_forall₂ hP h hts

/-- Points move no tank and bring none to life. -/
theorem Toll.award_fade (toll : Toll K) : TanksFade toll.tanks toll.award := by
  rw [toll.award_eq]
  exact Table.forall₂_map_self (fun t => Tank.fade_gain _ t) toll.tanks

variable [Scalar K]

namespace Tank

variable {t u : Tank K}

/-- Picking up changes the ammunition alone. -/
theorem collect_ammo (now : Time) (powerUps : List (PowerUp K)) (t : Tank K) :
    ∃ ammo, (t.collect now powerUps).1 = { t with ammo := ammo } := by
  have hload : ∀ (ps : List (PowerUp K)) (u : Tank K), ∃ ammo,
      ps.foldl (fun t _ => t.reload) u = { u with ammo := ammo } := by
    intro ps
    induction ps with
    | nil => exact fun u => ⟨u.ammo, rfl⟩
    | cons p ps ih => exact fun u => ih u.reload
  unfold collect
  split
  · exact hload _ t
  · exact ⟨t.ammo, rfl⟩

theorem fade_collect (now : Time) (powerUps : List (PowerUp K)) (t : Tank K) :
    t.Fade (t.collect now powerUps).1 := by
  obtain ⟨ammo, hammo⟩ := collect_ammo now powerUps t
  rw [hammo]
  exact ⟨rfl, rfl, fun h => h⟩

/-- What does not reach a tank does not reach it after it has faded. -/
theorem Fade.not_hits_projectile (h : t.Fade u) {p : Projectile K} (hp : p.hits t = false) :
    p.hits u = false := by
  rw [Bool.eq_false_iff] at hp ⊢
  intro hu
  rw [ne_eq, Projectile.hits_iff] at hp
  rw [Projectile.hits_iff, h.id_eq, h.location_eq] at hu
  exact hp ⟨h.live hu.1, hu.2⟩

theorem Fade.not_hits_beam (h : t.Fade u) {b : Beam K} (hb : b.hits t = false) :
    b.hits u = false := by
  rw [Bool.eq_false_iff] at hb ⊢
  intro hu
  rw [ne_eq, Beam.hits_iff] at hb
  rw [Beam.hits_iff, h.id_eq, h.location_eq] at hu
  exact hb ⟨h.live hu.1, hu.2⟩

/-- A live tank is not within reach of a point. -/
def IsClearOf (point : Vec K) (t : Tank K) : Prop :=
  t.isLive = true → withinTankRadius t.location point = false

theorem Fade.isClearOf (h : t.Fade u) {point : Vec K} (ht : t.IsClearOf point) :
    u.IsClearOf point := by
  intro hu
  rw [h.location_eq]
  exact ht (h.live hu)

end Tank

namespace Toll

/-! ## 2. Projectiles -/

theorem visit_strike_fade (now : Time) (toll : Toll K) (ps : List (Projectile K)) :
    TanksFade toll.tanks (Table.visit (strike now) toll ps).2.tanks :=
  visit_strike_forall₂ Tank.Fade.refl (fun _ _ _ => Tank.Fade.trans) (Tank.fade_damage now) toll ps

/-- **One projectile.**  If it is not spent, nothing has changed, and it hits no tank. -/
theorem strike_clear {now : Time} {toll : Toll K} {p : Projectile K}
    (h : (toll.strike now p).1.died = false) :
    toll.strike now p = (p, toll) ∧ ∀ t ∈ toll.tanks, p.hits t = false := by
  unfold strike at h ⊢
  by_cases hdied : p.died = true
  · rw [if_pos hdied, hdied] at h
    exact absurd h (by decide)
  · rw [if_neg hdied] at h ⊢
    cases hfind : toll.tanks.find? p.hits with
    | none =>
      refine ⟨rfl, fun t ht => ?_⟩
      exact Bool.eq_false_iff.mpr (List.find?_eq_none.mp hfind t ht)
    | some t =>
      rw [hfind] at h
      exact absurd h (by simp)

/-- **All projectiles.**  Those that are left were there before, and touch no tank.  By induction
on the projectiles: the first one touched no tank when it was looked at, and tanks only fade
under the others. -/
theorem visit_strike_clear (now : Time) (toll : Toll K) (ps : List (Projectile K)) :
    ∀ p ∈ (Table.visit (strike now) toll ps).1, p.died = false →
      p ∈ ps ∧ ∀ t ∈ (Table.visit (strike now) toll ps).2.tanks, p.hits t = false := by
  induction ps generalizing toll with
  | nil => exact fun p hp => absurd hp List.not_mem_nil
  | cons first ps ih =>
    intro p hp halive
    rcases List.mem_cons.mp hp with hfirst | hrest
    · rw [hfirst] at halive
      obtain ⟨hsame, hclear⟩ := strike_clear halive
      have hp' : p = first := hfirst.trans (congrArg Prod.fst hsame)
      refine ⟨hp' ▸ List.mem_cons_self, ?_⟩
      have hfade : TanksFade toll.tanks (Table.visit (strike now) toll (first :: ps)).2.tanks :=
        visit_strike_fade now toll (first :: ps)
      rw [hp']
      exact hfade.forall (fun _ _ hf => hf.not_hits_projectile) hclear
    · obtain ⟨hmem, hclear⟩ := ih (toll.strike now first).2 p hrest halive
      exact ⟨List.mem_cons_of_mem _ hmem, hclear⟩

/-! ## 3. Beams -/

theorem burn_fade (now : Time) (toll : Toll K) (b : Beam K) :
    TanksFade toll.tanks (toll.burn now b).tanks :=
  burn_forall₂ Tank.Fade.refl (Tank.fade_kill now) toll b

theorem foldl_burn_fade (now : Time) (bs : List (Beam K)) (toll : Toll K) :
    TanksFade toll.tanks (bs.foldl (burn now) toll).tanks :=
  foldl_burn_forall₂ Tank.Fade.refl (fun _ _ _ => Tank.Fade.trans) (Tank.fade_kill now) bs toll

/-- **One beam.**  It hits no tank any more once it has hit all that it hits. -/
theorem burn_clear (now : Time) (toll : Toll K) (b : Beam K) :
    ∀ t ∈ (toll.burn now b).tanks, b.hits t = false := by
  intro u hu
  obtain ⟨t, _, rfl⟩ := List.mem_map.mp hu
  by_cases hhits : b.hits t = true
  · rw [if_pos hhits]
    simp [Beam.hits, Tank.isLive, Tank.kill]
  · rw [if_neg hhits]
    exact Bool.eq_false_iff.mpr hhits

/-- **All beams.** -/
theorem foldl_burn_clear (now : Time) (bs : List (Beam K)) (toll : Toll K) :
    ∀ b ∈ bs, ∀ t ∈ (bs.foldl (burn now) toll).tanks, b.hits t = false := by
  induction bs generalizing toll with
  | nil => exact fun b hb => absurd hb List.not_mem_nil
  | cons first bs ih =>
    intro b hb
    rcases List.mem_cons.mp hb with rfl | hb
    · have hfade := foldl_burn_fade now bs (toll.burn now b)
      exact hfade.forall (fun _ _ hf => hf.not_hits_beam) (burn_clear now toll b)
    · exact ih (toll.burn now first) b hb

end Toll

/-! ## 4. Power-ups -/

/-- **One tank that picks up.**  A power-up that is left was there before, and the tank is clear
of it if it is live. -/
theorem Tank.collect_clear {now : Time} {powerUps : List (PowerUp K)} {t : Tank K} {p : PowerUp K}
    (hp : p ∈ (t.collect now powerUps).2) (halive : p.died = false) :
    p ∈ powerUps ∧ t.IsClearOf p.location := by
  unfold collect at hp
  by_cases hlive : t.isLive = true
  · rw [if_pos hlive] at hp
    obtain ⟨q, hq, hqp⟩ := List.mem_map.mp hp
    by_cases hreach : t.reaches q = true
    · rw [if_pos hreach] at hqp
      rw [← hqp] at halive
      exact absurd halive (by simp [PowerUp.take])
    · rw [if_neg hreach] at hqp
      subst hqp
      refine ⟨hq, fun _ => ?_⟩
      unfold reaches at hreach
      rw [halive, Bool.not_false, Bool.true_and] at hreach
      exact Bool.eq_false_iff.mpr hreach
  · rw [if_neg hlive] at hp
    exact ⟨hp, fun h => absurd h hlive⟩

theorem visit_collect_fade (now : Time) (powerUps : List (PowerUp K)) (ts : List (Tank K)) :
    TanksFade ts (Table.visit (Tank.collect now) powerUps ts).1 :=
  Table.visit_forall₂ (fun powerUps t => Tank.fade_collect now powerUps t) powerUps ts

/-- **All tanks that pick up.**  Every tank is clear of every power-up that is left at last. -/
theorem visit_collect_clear (now : Time) (powerUps : List (PowerUp K)) (ts : List (Tank K)) :
    ∀ p ∈ (Table.visit (Tank.collect now) powerUps ts).2, p.died = false →
      p ∈ powerUps ∧ ∀ t ∈ ts, t.IsClearOf p.location := by
  induction ts generalizing powerUps with
  | nil => exact fun p hp _ => ⟨hp, fun t ht => absurd ht List.not_mem_nil⟩
  | cons first ts ih =>
    intro p hp halive
    obtain ⟨hmem, hclear⟩ := ih (first.collect now powerUps).2 p hp halive
    obtain ⟨hbefore, hfirst⟩ := Tank.collect_clear hmem halive
    refine ⟨hbefore, fun t ht => ?_⟩
    rcases List.mem_cons.mp ht with rfl | ht
    · exact hfirst
    · exact hclear t ht

namespace World

/-! ## 5. The world after a tick -/

/-- The tanks of a tick fade from the power-ups on. -/
theorem gathered_fade (now : Time) (w : World K) :
    TanksFade (w.struck now).1.tanks (w.gathered now).tanks :=
  visit_collect_fade now _ _

theorem toll_fade (now : Time) (w : World K) :
    TanksFade (w.gathered now).tanks (w.toll now).tanks :=
  Toll.foldl_burn_fade now (w.gathered now).beams ⟨(w.gathered now).tanks, (w.struck now).2⟩

theorem tick_fade (now : Time) (w : World K) : TanksFade (w.toll now).tanks (w.tick now).tanks :=
  Toll.award_fade (w.toll now)

/-- A projectile that the edges and the walls left alone is inside the world and outside all
walls. -/
theorem inside_of_mem_walled {now : Time} {w : World K} {p : Projectile K}
    (hp : p ∈ (w.walled now).projectiles) (halive : p.died = false) :
    outOfBounds p.location w.half = false ∧ ∀ box ∈ w.boxes, box.contains p.location = false := by
  obtain ⟨q, hq, rfl⟩ := List.mem_map.mp hp
  obtain ⟨r, _, rfl⟩ := List.mem_map.mp hq
  -- The location is the same before and after both checks, so the two flags are about `p` itself.
  have hboxes : ((r.bound w.half).died || w.boxes.any fun box => box.contains r.location) = false :=
    halive
  rw [Bool.or_eq_false_iff, List.any_eq_false] at hboxes
  have hbound : (r.died || outOfBounds r.location w.half) = false := hboxes.1
  rw [Bool.or_eq_false_iff] at hbound
  exact ⟨hbound.2, fun box hbox => Bool.eq_false_iff.mpr (hboxes.2 box hbox)⟩

/-- A projectile that flies on after a tick is inside the world and outside all walls. -/
theorem inside_of_mem_tick {now : Time} {w : World K} {p : Projectile K}
    (hp : p ∈ (w.tick now).projectiles) (halive : p.died = false) :
    outOfBounds p.location w.half = false ∧ ∀ box ∈ w.boxes, box.contains p.location = false := by
  obtain ⟨hmem, _⟩ := Toll.visit_strike_clear now ⟨(w.walled now).tanks, []⟩
    (w.walled now).projectiles p hp halive
  exact inside_of_mem_walled hmem halive

/-- **No collision is missed.**  After a tick, in whatever order things were visited,

* no projectile that is alive is at or beyond an edge of the world, inside a wall, or within the
  circle of a live tank of another player;
* no power-up that can be picked up is within the circle of a live tank;
* no beam hits a live tank of another player. -/
theorem tick_leaves_no_contact (now : Time) (w : World K) :
    (∀ p ∈ (w.tick now).projectiles, p.died = false →
      outOfBounds p.location (w.tick now).half = false ∧
      (∀ box ∈ (w.tick now).boxes, box.contains p.location = false) ∧
      ∀ t ∈ (w.tick now).tanks, t.isLive = true → t.id ≠ p.owner →
        ¬ Scalar.sqrt ((p.location.x - t.location.x) * (p.location.x - t.location.x) +
          (p.location.y - t.location.y) * (p.location.y - t.location.y)) < 60.0 / 2.0) ∧
    (∀ p ∈ (w.tick now).powerUps, p.died = false →
      ∀ t ∈ (w.tick now).tanks, t.isLive = true →
        ¬ Scalar.sqrt ((p.location.x - t.location.x) * (p.location.x - t.location.x) +
          (p.location.y - t.location.y) * (p.location.y - t.location.y)) < 60.0 / 2.0) ∧
    (∀ b ∈ (w.tick now).beams, ∀ t ∈ (w.tick now).tanks, t.isLive = true → t.id ≠ b.owner →
      rayHitsCircle b.origin b.direction t.location (Rules.tankSize / 2.0) = false) := by
  have hburnt := (toll_fade now w).trans (tick_fade now w)
  have hgathered := (gathered_fade now w).trans hburnt
  refine ⟨?_, ?_, ?_⟩
  · intro p hp halive
    obtain ⟨hbounds, hboxes⟩ := inside_of_mem_tick hp halive
    obtain ⟨_, hclear⟩ := Toll.visit_strike_clear now ⟨(w.walled now).tanks, []⟩
      (w.walled now).projectiles p hp halive
    refine ⟨hbounds, hboxes, fun t ht hlive hother => ?_⟩
    have hmiss : p.hits t = false :=
      hgathered.forall (fun _ _ hf => hf.not_hits_projectile) hclear t ht
    intro hnear
    exact Bool.eq_false_iff.mp hmiss
      (Projectile.hits_iff.mpr ⟨hlive, hother, withinTankRadius_iff.mpr hnear⟩)
  · intro p hp halive t ht hlive
    obtain ⟨_, hclear⟩ := visit_collect_clear now (w.struck now).1.powerUps
      (w.struck now).1.tanks p hp halive
    have hmiss : withinTankRadius t.location p.location = false :=
      hgathered.forall (fun _ _ hf => hf.isClearOf) hclear t ht hlive
    intro hnear
    exact Bool.eq_false_iff.mp hmiss (withinTankRadius_iff.mpr hnear)
  · intro b hb t ht hlive hother
    have hclear := Toll.foldl_burn_clear now (w.gathered now).beams
      ⟨(w.gathered now).tanks, (w.struck now).2⟩ b hb
    have hmiss : b.hits t = false :=
      (tick_fade now w).forall (fun _ _ hf => hf.not_hits_beam) hclear t ht
    unfold Beam.hits at hmiss
    rw [hlive, bne_iff_ne.mpr hother] at hmiss
    exact hmiss

end World

end TankArena
