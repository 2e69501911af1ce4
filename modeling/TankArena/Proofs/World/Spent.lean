import TankArena.Proofs.World.Flight
import TankArena.Proofs.World.Respawn

/-!
# Spent projectiles

A projectile that hits a tank is spent on it.  This file keeps the account of the part of a tick in
which the projectiles are compared with the tanks.

* The projectiles that are spent are those of the hits, each once (`spent_eq`): no projectile hits
  twice, as it has fallen after its hit.
* Every hit takes one hit point, as whoever is hit is live and so has one to lose.  So the tanks
  lose as many hit points as projectiles are spent (`totalHitPoints_struck`), and each tank as many
  as projectiles are spent on it (`exists_spent_on`).
* Whom a projectile is spent on was within its reach when the part began (`near_of_mem_spent`).
* A projectile that an edge or a wall has stopped has no part in it (`strikeTanks_flying`).
* In the whole tick projectiles fall and tanks die of nothing else than edges, walls, hits and beams
  (`fall_of_died`, `death_of_died`).
-/

namespace TankArena

open Identified (ident)
open Table (Keyed)

variable {K : Type}

/-! ## 1. The projectiles of hits -/

namespace Hit

/-- The projectile that hits, if it is one. -/
def projectile? : Hit K → Option (Projectile K)
  | shot p _ => some p
  | ray _ _ => none

/-- Hits of projectiles cost one hit point each. -/
theorem lost_eq_count {hits : List (Hit K)} (h : ∀ x ∈ hits, ∃ p t, x = .shot p t) (id : UInt32) :
    lost id hits = (hits.map fun x => x.victim.id).count id := by
  have hcost : ∀ x ∈ hits.filter (fun x => x.victim.id == id), x.cost = 1 := by
    intro x hx
    obtain ⟨p, t, rfl⟩ := h x (List.mem_of_mem_filter hx)
    rfl
  unfold lost
  rw [List.map_congr_left hcost, List.map_const', List.sum_replicate_nat, Nat.mul_one,
    List.count_eq_countP, List.countP_map, List.countP_eq_length_filter]
  rfl

end Hit

namespace Toll

variable [Scalar K]

/-- Projectiles that have fallen make no hits. -/
theorem strikes_filter_died (now : Time) (toll : Toll K) (ps : List (Projectile K)) :
    strikes now toll (ps.filter fun p => !p.died) = strikes now toll ps := by
  induction ps generalizing toll with
  | nil => rfl
  | cons p ps ih =>
    cases hdied : p.died with
    | true =>
      have hnone : toll.hit? p = none := if_pos hdied
      have hsame : (toll.strike now p).2 = toll := by rw [strike_eq_hit?, hnone]; rfl
      rw [List.filter_cons_of_neg (by simp [hdied]), ih, strikes, hnone, hsame]
      rfl
    | false =>
      rw [List.filter_cons_of_pos (by simp [hdied]), strikes, strikes, ih]

/-- **Who is spent.**  The projectiles of the hits are those that fly before and have fallen after.
By induction on the projectiles: what is found under an id is the one whose turn it was, as its id
does not come again. -/
theorem filterMap_strikes (now : Time) (toll : Toll K) {ps : List (Projectile K)} (hk : Keyed ps) :
    (strikes now toll ps).filterMap Hit.projectile? = ps.filter fun p =>
      !p.died && (Table.find? p.id (Table.visit (strike now) toll ps).1).any Projectile.died := by
  induction ps generalizing toll with
  | nil => rfl
  | cons p ps ih =>
    obtain ⟨hnew, hrest⟩ := Table.keyed_cons.mp hk
    have hkept : ident (toll.strike now p).1 = p.id := World.strike_ident now toll p
    have hfirst : Table.find? p.id (Table.visit (strike now) toll (p :: ps)).1
        = some (toll.strike now p).1 := Table.find?_cons_self hkept _
    have hothers : ∀ q ∈ ps, Table.find? q.id (Table.visit (strike now) toll (p :: ps)).1
        = Table.find? q.id (Table.visit (strike now) (toll.strike now p).2 ps).1 := fun q hq =>
      Table.find?_cons_other (fun hsame => hnew q hq (hsame.symm.trans hkept)) _
    have hspent : (!p.died && (toll.strike now p).1.died) = (toll.hit? p).isSome := by
      rw [strike_eq_hit?]
      cases hhit : toll.hit? p with
      | none => cases p.died <;> rfl
      | some x => rw [(hit?_eq_some hhit).1]; rfl
    have hlater : ps.filter (fun q => !q.died &&
          (Table.find? q.id (Table.visit (strike now) toll (p :: ps)).1).any Projectile.died)
        = (strikes now (toll.strike now p).2 ps).filterMap Hit.projectile? := by
      rw [ih _ hrest]
      exact List.filter_congr fun q hq => by rw [hothers q hq]
    rw [strikes, List.filterMap_append, List.filter_cons, hfirst, Option.any_some, hspent, hlater]
    cases hhit : toll.hit? p with
    | none => rfl
    | some x =>
      obtain ⟨_, t, _, _, rfl⟩ := hit?_eq_some hhit
      rfl

end Toll

namespace World

/-- The hit points of all tanks together. -/
def totalHitPoints (w : World K) : Nat := (w.tanks.map fun t => t.hitPoints.toNat).sum

/-- The world without the projectiles that have fallen. -/
def flying (w : World K) : World K :=
  { w with projectiles := w.projectiles.filter fun p => !p.died }

variable [Scalar K] {w : World K}

/-- The projectiles that a tick spends on tanks: they fly before they are compared with the tanks,
and have fallen after that. -/
def spent (now : Time) (w : World K) : List (Projectile K) :=
  (w.walled now).projectiles.filter fun p =>
    !p.died && ((w.struck now).1.projectile? p.id).any Projectile.died

theorem mem_spent {now : Time} {p : Projectile K} :
    p ∈ w.spent now ↔ p ∈ (w.walled now).projectiles ∧ p.died = false ∧
      ∃ q, (w.struck now).1.projectile? p.id = some q ∧ q.died = true := by
  rw [spent, List.mem_filter, Bool.and_eq_true, Bool.not_eq_true', Option.any_eq_true]

/-! ## 2. The account of a tick -/

theorem walled_keyed (hk : Keyed w.projectiles) (now : Time) :
    Keyed (w.walled now).projectiles := by
  rw [walled_projectiles]
  exact (hk.filter _).map fun _ => rfl

theorem strikes_hits (now : Time) (w : World K) :
    Toll.Hits now ⟨(w.walled now).tanks, []⟩ (w.strikes now)
      ⟨(w.struck now).1.tanks, (w.struck now).2⟩ :=
  Toll.visit_strike_hits now _ _

theorem exists_of_mem_strikes {now : Time} {x : Hit K} (hx : x ∈ w.strikes now) :
    ∃ p t, x = .shot p t := by
  obtain ⟨p, _, t, hshot⟩ := Toll.exists_of_mem_strikes hx
  exact ⟨p, t, hshot⟩

/-- **The projectiles that are spent** are those of the hits. -/
theorem spent_eq (hk : Keyed w.projectiles) (now : Time) :
    w.spent now = (w.strikes now).filterMap Hit.projectile? :=
  (Toll.filterMap_strikes now ⟨(w.walled now).tanks, []⟩ (walled_keyed hk now)).symm

theorem length_spent (hk : Keyed w.projectiles) (now : Time) :
    (w.spent now).length = (w.strikes now).length := by
  rw [spent_eq hk, List.length_filterMap_eq_countP, List.countP_eq_length]
  intro x hx
  obtain ⟨p, t, rfl⟩ := exists_of_mem_strikes hx
  rfl

/-- What each tank endures of the projectiles. -/
theorem strikes_endured (hs : w.Sound) (now : Time) :
    List.Forall₂ (Tank.Endured (w.strikes now)) (w.walled now).tanks (w.struck now).1.tanks :=
  (strikes_hits now w).endured ((changes_walled now w).keyed hs.keyed)
    ((changes_walled now w).sound hs.tanks)

/-- A victim of a projectile was live, there and where it is when the part began. -/
theorem exists_victim {now : Time} {x : Hit K} (hx : x ∈ w.strikes now) :
    ∃ p, x.projectile? = some p ∧ ∃ t ∈ (w.walled now).tanks, t.id = x.victim.id ∧
      t.isLive = true ∧ t.id ≠ p.owner ∧ withinTankRadius t.location p.location = true := by
  obtain ⟨p, v, rfl⟩ := exists_of_mem_strikes hx
  have hlands := (strikes_hits now w).lands _ hx
  obtain ⟨t, ht, hfade⟩ := (strikes_hits now w).exists_victim _ hx
  rw [Hit.lands, Bool.and_eq_true, Projectile.hits_iff] at hlands
  obtain ⟨_, hlive, hother, hnear⟩ := hlands
  have hid : v.id = t.id := hfade.id_eq
  have hlocation : v.location = t.location := hfade.location_eq
  exact ⟨p, rfl, t, ht, hid.symm, hfade.live hlive, hid ▸ hother, hlocation ▸ hnear⟩

/-- **All tanks together lose as many hit points as projectiles are spent.** -/
theorem totalHitPoints_struck (hs : w.Sound) (hk : Keyed w.projectiles) (now : Time) :
    (w.struck now).1.totalHitPoints + (w.spent now).length = (w.walled now).totalHitPoints := by
  have hwalled : Keyed (w.walled now).tanks := (changes_walled now w).keyed hs.keyed
  have hstruck : Keyed (w.struck now).1.tanks := (struck_tanks 0 now hs.keyed).keyed hwalled
  have hleft : ((w.struck now).1.tanks.map fun u =>
        u.hitPoints.toNat + Hit.lost u.id (w.strikes now))
      = (w.walled now).tanks.map fun t => t.hitPoints.toNat :=
    Table.map_eq_of_forall₂
      (fun t _ u h => by rw [Tank.Endured.id_eq h]; exact Tank.Endured.hitPoints h)
      (strikes_endured hs now)
  have hvictims : ∀ id ∈ (w.strikes now).map fun x => x.victim.id,
      Table.has id (w.struck now).1.tanks = true := by
    intro id hid
    obtain ⟨x, hx, rfl⟩ := List.mem_map.mp hid
    obtain ⟨_, _, t, ht, hvictim, _⟩ := exists_victim hx
    rw [Table.has_of_forall₂ (fun _ _ h => Tank.Endured.id_eq h) (strikes_endured hs now),
      Table.has_iff_mem_ids, ← hvictim]
    exact List.mem_map_of_mem ht
  have hcount : ∀ u : Tank K, Hit.lost u.id (w.strikes now)
      = ((w.strikes now).map fun x => x.victim.id).count (ident u) :=
    fun u => Hit.lost_eq_count (fun x hx => exists_of_mem_strikes hx) u.id
  simp only [hcount] at hleft
  unfold totalHitPoints
  rw [← hleft, List.sum_map_add, Table.sum_count hstruck, List.countP_eq_length.mpr hvictims,
    List.length_map, length_spent hk]

/-- **One tank** loses as many hit points as projectiles are spent on it, all of others and within
its radius. -/
theorem exists_spent_on (hs : w.Sound) (hk : Keyed w.projectiles) {now : Time} {id : UInt32}
    {t : Tank K} (ht : (w.walled now).tank? id = some t) :
    ∃ u lost, (w.struck now).1.tank? id = some u ∧
      u.hitPoints.toNat + lost = t.hitPoints.toNat ∧
      lost ≤ (w.spent now).countP fun p =>
        t.id != p.owner && withinTankRadius t.location p.location := by
  have hwalled : Keyed (w.walled now).tanks := (changes_walled now w).keyed hs.keyed
  obtain ⟨u, hu, hendured⟩ :=
    Table.exists_found_after (fun _ _ h => Tank.Endured.id_eq h) (strikes_endured hs now) ht
  refine ⟨u, _, hu, hendured.hitPoints, ?_⟩
  rw [Hit.lost_eq_count (fun x hx => exists_of_mem_strikes hx), List.count_eq_countP,
    List.countP_map, spent_eq hk, List.countP_filterMap]
  refine List.countP_mono_left fun x hx hvictim => ?_
  obtain ⟨p, hp, v, hv, hvid, _, hother, hnear⟩ := exists_victim hx
  have hsame : v = t :=
    hwalled.eq_of_ident_eq hv (Table.mem_of_find? ht) (hvid.trans (beq_iff_eq.mp hvictim))
  rw [hsame] at hother hnear
  rw [hp, Option.map_some, Option.getD_some, bne_iff_ne.mpr hother, hnear]
  rfl

/-- A projectile that is spent was within reach of somebody. -/
theorem near_of_mem_spent (hk : Keyed w.projectiles) {now : Time} {p : Projectile K}
    (hp : p ∈ w.spent now) : ∃ t ∈ (w.walled now).tanks, t.isLive = true ∧ t.id ≠ p.owner ∧
      Scalar.sqrt ((p.location.x - t.location.x) * (p.location.x - t.location.x) +
        (p.location.y - t.location.y) * (p.location.y - t.location.y)) < 60.0 / 2.0 := by
  rw [spent_eq hk, List.mem_filterMap] at hp
  obtain ⟨x, hx, hxp⟩ := hp
  obtain ⟨q, hq, t, ht, _, hlive, hother, hnear⟩ := exists_victim hx
  obtain rfl : q = p := Option.some.inj (hq.symm.trans hxp)
  exact ⟨t, ht, hlive, hother, withinTankRadius_iff.mp hnear⟩

/-- **A projectile that has fallen costs nobody anything.** -/
theorem strikeTanks_flying (now : Time) (w : World K) :
    (w.flying.strikeTanks now).1.tanks = (w.strikeTanks now).1.tanks ∧
      (w.flying.strikeTanks now).2 = (w.strikeTanks now).2 := by
  have htoll : (Table.visit (Toll.strike now) ⟨w.tanks, []⟩ w.flying.projectiles).2
      = (Table.visit (Toll.strike now) ⟨w.tanks, []⟩ w.projectiles).2 := by
    rw [Toll.visit_strike_eq, Toll.visit_strike_eq, flying, Toll.strikes_filter_died]
  exact ⟨congrArg Toll.tanks htoll, congrArg Toll.scorers htoll⟩

/-! ## 3. The whole tick -/

/-- **Why a projectile falls** in a tick: an edge or a wall stops it, or it is spent. -/
theorem fall_of_died (hk : Keyed w.projectiles) {now : Time} {q : Projectile K}
    (hq : q ∈ (w.tick now).projectiles) (hdied : q.died = true) :
    outOfBounds q.location w.half = true ∨ (∃ box ∈ w.boxes, box.contains q.location = true) ∨
      ∃ p ∈ w.spent now, q = p.fall := by
  have hfound : (w.tick now).projectile? q.id = some q :=
    (Table.find?_eq_some_iff (tick_projectiles_keyed hk now)).mpr ⟨hq, rfl⟩
  obtain ⟨hit, _, htick, _⟩ := tick_projectile? hk now q.id
  have hends := htick.symm.trans hfound
  obtain ⟨p, hp, rfl⟩ := Option.map_eq_some_iff.mp hends
  obtain ⟨hbefore, hflew⟩ := Option.filter_eq_some_iff.mp hp
  cases hstops : w.stops (w.flown p) with
  | true =>
    unfold stops at hstops
    rw [Bool.or_eq_true, List.any_eq_true] at hstops
    exact hstops.imp_right Or.inl
  | false =>
    have hflies : (w.flown p).died = false := by
      have hclear : w.stops p.step = false := hstops
      rw [flown, hclear, Bool.or_false]
      simpa using hflew
    have hmem : w.flown p ∈ (w.walled now).projectiles := by
      rw [walled_projectiles]
      exact List.mem_map_of_mem (List.mem_filter.mpr ⟨Table.mem_of_find? hbefore, hflew⟩)
    have hspent : w.flown p ∈ w.spent now := mem_spent.mpr ⟨hmem, hflies, _, hfound, hdied⟩
    have hfell : ((w.flown p).died || hit) = true := hdied
    exact Or.inr (Or.inr ⟨w.flown p, hspent, by rw [hfell]; rfl⟩)

/-- A tank that has its life before the beams and has lost it after them was hit by one. -/
theorem exists_beam_of_died (hs : w.Sound) {now : Time} {id : UInt32} {g x : Tank K}
    (hg : (w.gathered now).tank? id = some g) (hx : Table.find? id (w.toll now).tanks = some x)
    (halive : g.died = false) (hdied : x.died = true) :
    ∃ b ∈ (w.tick now).beams, b.owner ≠ id ∧
      rayHitsCircle b.origin b.direction g.location (Rules.tankSize / 2.0) = true := by
  obtain ⟨_, rays, hhits⟩ := exists_tickHits hs.keyed now
  have hgathered := changes_gathered now hs.keyed
  have hburnt := hhits.blaze.endured (hgathered.keyed hs.keyed) (hgathered.sound hs.tanks)
  obtain ⟨y, hy, hendured⟩ :=
    Table.exists_found_after (fun _ _ h => Tank.Endured.id_eq h) hburnt hg
  obtain rfl : y = x := Option.some.inj (hy.symm.trans hx)
  have hgid : g.id = id := Table.ident_of_find? hg
  have hlive : g.isLive = true := by
    have hgsound : g.Sound := hgathered.sound hs.tanks g (Table.mem_of_find? hg)
    have hplayer : g.disconnected = false := Bool.eq_false_iff.mpr fun hgone =>
      Bool.eq_false_iff.mp halive (hgsound.died_of_disconnected hgone)
    rw [Tank.isLive, halive, hplayer]
    rfl
  have hdeadly : 0 < Hit.deadlyOn g.id rays := by
    rw [hendured.deadlyOn_eq, hlive, hdied]
    exact Nat.one_pos
  obtain ⟨ray, hray, hvictim⟩ := List.countP_pos_iff.mp hdeadly
  obtain ⟨b, hb, v, rfl⟩ := hhits.exists_beam ray hray
  obtain ⟨t, ht, hfade⟩ := hhits.blaze.exists_victim _ hray
  have hvid : v.id = g.id := beq_iff_eq.mp (Bool.and_eq_true_iff.mp hvictim).2
  have hvt : v.id = t.id := hfade.id_eq
  obtain rfl : t = g := (hgathered.keyed hs.keyed).eq_of_ident_eq ht (Table.mem_of_find? hg)
    (hvt.symm.trans hvid)
  have hlands : b.hits v = true := hhits.blaze.lands _ hray
  obtain ⟨_, hother, hahead⟩ := Beam.hits_iff.mp hlands
  have hlocation : v.location = t.location := hfade.location_eq
  exact ⟨b, hb, fun howner => hother (hvid.trans (hgid.trans howner.symm)), hlocation ▸ hahead⟩

/-- A tank that is dead when the walls are done was dead before and has not come back. -/
theorem dead_before_of_walled (now : Time) {id : UInt32} {t : Tank K}
    (ht : (w.walled now).tank? id = some t) (hdied : t.died = true) :
    ∃ b, w.tank? id = some b ∧ (w.returned now).tank? id = some b ∧ b.died = true := by
  rw [walled_tank?] at ht
  obtain ⟨b, hb, rfl⟩ := Option.map_eq_some_iff.mp ht
  have hbdied : b.died = true := by
    obtain ⟨_, _, _, hsame⟩ := exists_walled w b
    rw [hsame] at hdied
    exact hdied
  have hreturned := hb
  rw [returned_tank?] at hreturned
  obtain ⟨c, hc, hcb⟩ := Option.map_eq_some_iff.mp hreturned
  by_cases hdue : c.isDue w.respawnDelay now = true
  · rw [if_pos hdue] at hcb
    rw [← hcb] at hbdied
    cases hbdied
  · rw [if_neg hdue] at hcb
    exact ⟨b, hcb ▸ hc, hb, hbdied⟩

/-- **Why a tank is dead** after a tick: it was dead before and has not come back, it has lost its
last hit point to a projectile, or a beam of another player hits it. -/
theorem death_of_died (hs : w.Sound) {now : Time} {id : UInt32} {u : Tank K}
    (hu : (w.tick now).tank? id = some u) (hdied : u.died = true) :
    (∃ t, w.tank? id = some t ∧ (w.returned now).tank? id = some t ∧ t.died = true) ∨
    (∃ t v, (w.walled now).tank? id = some t ∧ (w.struck now).1.tank? id = some v ∧
      t.hitPoints ≠ 0 ∧ v.hitPoints = 0) ∨
    ∃ b ∈ (w.tick now).beams, b.owner ≠ id ∧
      rayHitsCircle b.origin b.direction u.location (Rules.tankSize / 2.0) = true := by
  rw [tick_tank?] at hu
  obtain ⟨x, hx, rfl⟩ := Option.map_eq_some_iff.mp hu
  obtain ⟨g, hg, hburnt⟩ :=
    Table.exists_found_before (fun _ _ h => Tank.Fade.id_eq h) (toll_fade now w) hx
  cases hgdied : g.died with
  | false =>
    obtain ⟨b, hb, hother, hahead⟩ := exists_beam_of_died hs hg hx hgdied hdied
    have hlocation : (x.gain (w.points now id)).location = g.location := hburnt.location_eq
    exact Or.inr (Or.inr ⟨b, hb, hother, hlocation.symm ▸ hahead⟩)
  | true =>
    have hcollect : List.Forall₂ (fun v g : Tank K => ∃ ammo, g = { v with ammo := ammo })
        (w.struck now).1.tanks (w.gathered now).tanks :=
      Table.visit_forall₂ (fun powerUps t => t.collect_ammo now powerUps) _ _
    obtain ⟨v, hv, ammo, rfl⟩ :=
      Table.exists_found_before (fun _ _ h => by obtain ⟨_, rfl⟩ := h; rfl) hcollect hg
    obtain ⟨t, ht, _⟩ :=
      Table.exists_found_before (fun _ _ h => Tank.Endured.id_eq h) (strikes_endured hs now) hv
    have hwalled := changes_walled now w
    cases htdied : t.died with
    | false =>
      have htsound : t.Sound := hwalled.sound hs.tanks t (Table.mem_of_find? ht)
      have hvsound : v.Sound := TanksChange.sound (hwalled.trans (struck_tanks _ now hs.keyed))
        hs.tanks v (Table.mem_of_find? hv)
      have hpoints : t.hitPoints ≠ 0 := fun hzero =>
        Bool.eq_false_iff.mp htdied (htsound.died_iff.mpr hzero)
      exact Or.inr (Or.inl ⟨t, v, ht, hv, hpoints, hvsound.died_iff.mp hgdied⟩)
    | true => exact Or.inl (dead_before_of_walled now ht htdied)

/-- **Hit points are paid for with projectiles.**  In every world that can be reached, in whatever
order things are visited, and for a tick at any instant:

* in the part that compares projectiles with tanks, the tanks together lose as many hit points as
  projectiles are spent;
* each of these is within the radius of a tank that was live when the part began, and not its
  owner's;
* a tank that loses some hit points has at least as many of these, all of other owners, within its
  radius;
* projectiles that an edge or a wall has stopped make no difference to the tanks, nor to who scores;
* in the whole tick a projectile falls only out of bounds, in the box of a wall, or spent;
* a tank that is dead after the tick was dead before and has not come back, or has lost its last hit
  point to the projectiles, or is hit by a beam of another player. -/
theorem hit_points_paid_for {settings : Settings K} {source : Source}
    (hw : Reachable settings source w) (now : Time) :
    (w.struck now).1.totalHitPoints + (w.spent now).length = (w.walled now).totalHitPoints ∧
    (∀ p ∈ w.spent now, ∃ t ∈ (w.walled now).tanks, t.isLive = true ∧ t.id ≠ p.owner ∧
      Scalar.sqrt ((p.location.x - t.location.x) * (p.location.x - t.location.x) +
        (p.location.y - t.location.y) * (p.location.y - t.location.y)) < 60.0 / 2.0) ∧
    (∀ id t, (w.walled now).tank? id = some t →
      ∃ u lost, (w.struck now).1.tank? id = some u ∧
        u.hitPoints.toNat + lost = t.hitPoints.toNat ∧
        lost ≤ (w.spent now).countP fun p =>
          t.id != p.owner && withinTankRadius t.location p.location) ∧
    (((w.walled now).flying.strikeTanks now).1.tanks = (w.struck now).1.tanks ∧
      ((w.walled now).flying.strikeTanks now).2 = (w.struck now).2) ∧
    (∀ q ∈ (w.tick now).projectiles, q.died = true →
      outOfBounds q.location w.half = true ∨ (∃ box ∈ w.boxes, box.contains q.location = true) ∨
        ∃ p ∈ w.spent now, q = p.fall) ∧
    ∀ id u, (w.tick now).tank? id = some u → u.died = true →
      (∃ t, w.tank? id = some t ∧ (w.returned now).tank? id = some t ∧ t.died = true) ∨
      (∃ t v, (w.walled now).tank? id = some t ∧ (w.struck now).1.tank? id = some v ∧
        t.hitPoints ≠ 0 ∧ v.hitPoints = 0) ∨
      ∃ b ∈ (w.tick now).beams, b.owner ≠ id ∧
        rayHitsCircle b.origin b.direction u.location (Rules.tankSize / 2.0) = true := by
  have hs := hw.sound
  have hk := hw.indexed.projectiles
  exact ⟨totalHitPoints_struck hs hk now, fun p hp => near_of_mem_spent hk hp,
    fun id t ht => exists_spent_on hs hk ht, strikeTanks_flying now (w.walled now),
    fun q hq hdied => fall_of_died hk hq hdied, fun id u hu hdied => death_of_died hs hu hdied⟩

/-- In the duel three projectiles pay for three hit points. -/
theorem hit_points_paid_for_duel :
    Reachable duelSettings (Source.ofSeed 8) duel ∧ (duel.spent 4).length = 3 ∧
      (duel.struck 4).1.totalHitPoints + 3 = (duel.walled 4).totalHitPoints := by
  have hspent : (duel.spent 4).length = 3 := by decide +kernel
  have hpaid := (hit_points_paid_for reachable_duel 4).1
  rw [hspent] at hpaid
  exact ⟨reachable_duel, hspent, hpaid⟩

end World

end TankArena
