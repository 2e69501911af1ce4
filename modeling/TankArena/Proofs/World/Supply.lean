import Mathlib.Algebra.Order.BigOperators.Group.List
import Mathlib.Algebra.Order.Group.Nat
import TankArena.Proofs.World.Course
import TankArena.Proofs.World.Pickups

/-!
# Beams are paid for

A beam costs a charge, and charges come from power-ups only.  So however tanks die, come back, leave
or throw charges away, all beams so far and all charges that are left are no more than all pickups
so far.

* `perform_totalAmmo` is the balance of one operation, and `Course.balance` that of a course.
* A power-up is back only after the respawn delay, so its pickups keep that delay apart as long as
  ticks are not told earlier instants than those before (`Course.spaced`).
-/

namespace TankArena

open Table (Keyed)

variable {K : Type} [Scalar K]

/-! ## 1. What a course counts -/

namespace Moment

/-- Whether a beam is fired in the operation. -/
def shines (m : Moment K) : Bool :=
  match m.op.pull? with
  | some (_, .alt, _) => m.outcome.shot?.isSome
  | _ => false

/-- How many power-ups are picked up in the operation. -/
def pickups (m : Moment K) : Nat :=
  match m.op with
  | .tick now => (m.world.pickedUp now).length
  | _ => 0

/-- When the power-up with an id is picked up, if it is picked up in the operation. -/
def pickedAt? (id : UInt32) (m : Moment K) : Option Time :=
  match m.op with
  | .tick now => if id ∈ (m.world.pickedUp now).map PowerUp.id then some now else none
  | _ => none

end Moment

/-- How many beams were fired. -/
def beamsFired (past : List (Moment K)) : Nat := past.countP Moment.shines

/-- How many times a power-up was picked up. -/
def pickups (past : List (Moment K)) : Nat := (past.map Moment.pickups).sum

/-- When the power-up with an id was picked up, the latest first. -/
def pickedAt (id : UInt32) (past : List (Moment K)) : List Time :=
  past.filterMap (Moment.pickedAt? id)

/-- The instants of the ticks, the latest first. -/
def tickTimes (past : List (Moment K)) : List Time := past.filterMap Moment.tickAt?

namespace World

variable {w : World K} {op : Operation K} {id : UInt32} {trigger : Trigger} {now : Time}

/-! ## 2. The balance -/

theorem heededBy_totalAmmo (w : World K) (op : Operation K) :
    (op.heeded w).totalAmmo = w.totalAmmo := by
  cases op with
  | command key c now =>
    simp only [totalAmmo, Operation.heeded, heeded, Table.modify, List.map_map]
    refine congrArg List.sum (List.map_congr_left fun t _ => ?_)
    rw [Function.comp_apply]
    split
    · rw [Tank.heed_ammo]
    · rfl
  | _ => rfl

omit [Scalar K] in
/-- A trigger costs all tanks together a charge if it fires a beam. -/
theorem pulled_totalAmmo (hk : Keyed w.tanks) (id : UInt32) (trigger : Trigger) (now : Time) :
    (w.pulled id trigger now).totalAmmo
        + (if trigger = .alt ∧ (w.shot? id trigger now).isSome then 1 else 0) = w.totalAmmo := by
  cases ht : w.tank? id with
  | none =>
    have hshot : w.shot? id trigger now = none := by rw [shot?, ht, Option.bind_none]
    rw [pulled_of_shot?_eq_none hk hshot, hshot, if_neg (by simp)]
    rfl
  | some t =>
    have hsum := Table.sum_modify hk ht (Tank.pull w.fireCooldown trigger now)
      fun t => t.ammo.toNat
    have hcost := Tank.pull_ammo w.fireCooldown trigger now t
    rw [shot?_of_tank? ht]
    simp only [totalAmmo, pulled] at hsum ⊢
    omega

theorem shines_of_pull (hk : Keyed w.tanks) (h : op.pull? = some (id, trigger, now)) :
    Moment.shines ⟨w, op⟩ = decide (trigger = .alt ∧ (w.shot? id trigger now).isSome) := by
  rw [← isSome_shot?_perform hk h, Moment.shines, h]
  cases trigger <;> simp [Moment.outcome]

/-- **The balance of one operation.** -/
theorem perform_totalAmmo (hs : w.Sound) (hp : Keyed w.powerUps) (op : Operation K) :
    (w.perform op).1.totalAmmo + (Moment.shines ⟨w, op⟩).toNat
      ≤ w.totalAmmo + Moment.pickups ⟨w, op⟩ := by
  have hsublist : ∀ {ts : List (Tank K)}, ts.Sublist w.tanks →
      (ts.map fun t => t.ammo.toNat).sum ≤ w.totalAmmo := fun hts =>
    (hts.map fun t : Tank K => t.ammo.toNat).sum_le_sum fun _ _ => Nat.zero_le _
  cases hpull : op.pull? with
  | some pull =>
    obtain ⟨id, trigger, now⟩ := pull
    have hcost := pulled_totalAmmo (heededBy_keyed hs.keyed op) id trigger now
    rw [isSome_shot?_heeded, heededBy_totalAmmo] at hcost
    have htanks : (w.perform op).1.totalAmmo = ((op.heeded w).pulled id trigger now).totalAmmo := by
      rw [totalAmmo, perform_tanks_of_pull hs.keyed hpull, totalAmmo]
    have hshines : (Moment.shines ⟨w, op⟩).toNat
        = if trigger = .alt ∧ (w.shot? id trigger now).isSome then 1 else 0 := by
      rw [shines_of_pull hs.keyed hpull]
      exact Bool.cond_decide _ _ _
    rw [htanks, hshines, hcost]
    exact Nat.le_add_right _ _
  | none =>
    have hdark : Moment.shines ⟨w, op⟩ = false := by rw [Moment.shines, hpull]
    rw [hdark]
    cases op with
    | join id name =>
      change (w.join id name).1.totalAmmo ≤ w.totalAmmo
      rcases join_cases id name w with ⟨_, hsame⟩ | ⟨_, hnew⟩
      · rw [hsame]
      · rw [hnew]
        simp only [totalAmmo, Table.put, List.map_append, List.sum_append]
        exact hsublist List.filter_sublist
    | disconnect id =>
      refine Nat.le_of_eq (congrArg List.sum ?_)
      change (List.map _ (List.map _ w.tanks)) = _
      rw [List.map_map]
      refine List.map_congr_left fun t _ => ?_
      rw [Function.comp_apply]
      split <;> rfl
    | command | fire => cases hpull
    | tick now => exact totalAmmo_tick hs hp now
    | purge | snapshot =>
      change (List.map _ (List.map _ (w.tanks.filter _))).sum ≤ _
      rw [List.map_map]
      exact hsublist List.filter_sublist

/-- **The balance of a course.** -/
theorem Course.balance {start : World K} {past : List (Moment K)} (h : Course start past w)
    (hs : start.Sound) (hi : start.Indexed) (hnobody : start.tanks = []) :
    beamsFired past + w.totalAmmo ≤ pickups past := by
  induction h with
  | start =>
    unfold totalAmmo
    rw [hnobody]
    exact Nat.le_refl _
  | @perform past w op hcourse ih =>
    have hone := perform_totalAmmo (hcourse.sound hs) (hcourse.indexed hi).powerUps op
    have hbeams : beamsFired (⟨w, op⟩ :: past)
        = beamsFired past + (Moment.shines ⟨w, op⟩).toNat := by
      unfold beamsFired
      rw [List.countP_cons]
      cases Moment.shines ⟨w, op⟩ <;> rfl
    have hpickups : pickups (⟨w, op⟩ :: past) = Moment.pickups ⟨w, op⟩ + pickups past := by
      rw [pickups, List.map_cons, List.sum_cons, pickups]
    omega
  | shuffle _ hshuffle ih =>
    have htotal := (hshuffle.tanks.map fun t => t.ammo.toNat).sum_eq
    unfold totalAmmo at ih ⊢
    omega

end World

/-! ## 3. One power-up -/

/-- A power-up that knows when it was picked up last, or is back, and then a tick came more than the
delay after that. -/
def PowerUp.Recalls (delay : Nat) (id : UInt32) (past : List (Moment K)) (p : PowerUp K) : Prop :=
  ∀ last, (pickedAt id past).head? = some last →
    p.diedAt = some last ∨ (p.died = false ∧ ∃ back ∈ tickTimes past, last + delay < back)

namespace PowerUp

variable {delay : Nat} {id : UInt32} {past : List (Moment K)} {p b : PowerUp K} {now last : Time}

/-- **A power-up is there in a tick** only if the tick comes more than the delay after it was picked
up last. -/
theorem Recalls.lt_of_there (h : p.Recalls delay id past) (hs : p.Sound)
    (hback : p.Returns delay now b) (hclock : ∀ earlier ∈ tickTimes past, earlier ≤ now)
    (hthere : b.died = false) (hlast : (pickedAt id past).head? = some last) :
    last + delay < now := by
  rcases h last hlast with hclockRuns | ⟨_, back, hmem, hlt⟩
  · by_cases hdue : p.isDue delay now = true
    · rw [isDue, hclockRuns, Option.any_some] at hdue
      have hlong : delay < now.elapsed last := of_decide_eq_true hdue
      exact Nat.add_lt_of_lt_sub' hlong
    · rw [Returns, if_neg hdue] at hback
      have hdied : p.died = true := hs.mpr (by rw [hclockRuns]; rfl)
      rw [hback, hdied] at hthere
      cases hthere
  · exact Nat.lt_of_lt_of_le hlt (hclock back hmem)

/-- A power-up that is not there in a tick has known it before. -/
theorem Recalls.diedAt_of_gone (h : p.Recalls delay id past)
    (hback : p.Returns delay now b) (hgone : b.died = true)
    (hlast : (pickedAt id past).head? = some last) : b.diedAt = some last := by
  by_cases hdue : p.isDue delay now = true
  · rw [Returns, if_pos hdue] at hback
    obtain ⟨location, rfl⟩ := hback
    cases hgone
  · rw [Returns, if_neg hdue] at hback
    subst hback
    rcases h last hlast with hclockRuns | ⟨hthere, _⟩
    · exact hclockRuns
    · rw [hthere] at hgone
      cases hgone

end PowerUp

namespace World

variable {w start : World K} {op : Operation K} {id : UInt32} {past : List (Moment K)}

theorem perform_powerUps_eq (h : Moment.tickAt? ⟨w, op⟩ = none) :
    (w.perform op).1.powerUps = w.powerUps := by
  cases op with
  | join key name =>
    change (w.join key name).1.powerUps = _
    rcases join_cases key name w with ⟨_, hsame⟩ | ⟨_, hnew⟩
    · rw [hsame]
    · rw [hnew]
  | command key c now => exact command_powerUps key c now w
  | fire key trigger now => exact fire_powerUps key trigger now w
  | tick now => cases h
  | disconnect | purge | snapshot => rfl

/-- A course in which the pickups of the power-up with an id keep the delay apart, and in whose
world it recalls the last one. -/
structure Spaced (delay : Nat) (id : UInt32) (past : List (Moment K)) (w : World K) : Prop where
  apart : (pickedAt id past).Pairwise fun later earlier => earlier + delay < later
  recalls : ∀ p, Table.find? id w.powerUps = some p → p.Recalls delay id past

/-- **What is no tick** picks up nothing. -/
theorem Spaced.perform {delay : Nat} (h : w.Spaced delay id past)
    (htick : Moment.tickAt? ⟨w, op⟩ = none) :
    (w.perform op).1.Spaced delay id (⟨w, op⟩ :: past) := by
  have hpicked : Moment.pickedAt? id ⟨w, op⟩ = none := by
    unfold Moment.tickAt? at htick
    unfold Moment.pickedAt?
    cases op with
    | tick now => cases htick
    | _ => rfl
  have htimes : tickTimes (⟨w, op⟩ :: past) = tickTimes past := by
    rw [tickTimes, List.filterMap_cons, htick, tickTimes]
  have hpickups : pickedAt id (⟨w, op⟩ :: past) = pickedAt id past := by
    rw [pickedAt, List.filterMap_cons, hpicked, pickedAt]
  constructor
  · rw [hpickups]
    exact h.apart
  · unfold PowerUp.Recalls
    rw [perform_powerUps_eq htick, hpickups, htimes]
    exact h.recalls

/-- **A tick.**  What is picked up in it is there in it, so its last pickup is long ago, and those
before that are longer ago. -/
theorem Spaced.tick (h : w.Spaced w.respawnDelay id past) (hs : w.Sound) (hp : Keyed w.powerUps)
    {now : Time} (hclock : ∀ earlier ∈ tickTimes past, earlier ≤ now) :
    (w.tick now).Spaced w.respawnDelay id (⟨w, .tick now⟩ :: past) := by
  obtain ⟨hafter, hthere⟩ := powerUp_tick hs hp now id
  have hbefore : ∀ b, Table.find? id (w.moved now).powerUps = some b →
      ∃ p : PowerUp K, p.Recalls w.respawnDelay id past ∧ p.Sound ∧
        p.Returns w.respawnDelay now b := by
    intro b hb
    obtain ⟨p, hfound, hback⟩ := powerUp_moved hb
    exact ⟨p, h.recalls p hfound, hs.powerUps p (Table.mem_of_find? hfound), hback⟩
  by_cases hpicked : id ∈ (w.pickedUp now).map PowerUp.id
  · have hpickups : pickedAt id (⟨w, .tick now⟩ :: past) = now :: pickedAt id past := by
      have hnew : Moment.pickedAt? id ⟨w, .tick now⟩ = some now := if_pos hpicked
      rw [pickedAt, List.filterMap_cons, hnew, pickedAt]
    obtain ⟨b, hb, halive⟩ := hthere hpicked
    obtain ⟨p, hrecalls, hsound, hback⟩ := hbefore b hb
    refine ⟨?_, fun q hq last hlast => Or.inl ?_⟩
    · rw [hpickups]
      exact apart_cons h.apart fun last hlast =>
        hrecalls.lt_of_there hsound hback hclock halive hlast
    · rw [hafter, hb, Option.map_some, if_pos hpicked] at hq
      obtain rfl := Option.some.inj hq
      rw [hpickups] at hlast
      exact hlast
  · have hpickups : pickedAt id (⟨w, .tick now⟩ :: past) = pickedAt id past := by
      have hnone : Moment.pickedAt? id ⟨w, .tick now⟩ = none := if_neg hpicked
      rw [pickedAt, List.filterMap_cons, hnone, pickedAt]
    refine ⟨hpickups ▸ h.apart, fun q hq last hlast => ?_⟩
    simp only [hafter, hpicked, if_false, Option.map_id'] at hq
    rw [hpickups] at hlast
    obtain ⟨p, hrecalls, hsound, hback⟩ := hbefore q hq
    by_cases hgone : q.died = true
    · exact Or.inl (hrecalls.diedAt_of_gone hback hgone hlast)
    · have halive : q.died = false := Bool.eq_false_iff.mpr hgone
      exact Or.inr ⟨halive, now, List.mem_cons_self,
        hrecalls.lt_of_there hsound hback hclock halive hlast⟩

/-- **Pickups of one power-up keep the respawn delay apart,** if ticks are told instants that never
decrease. -/
theorem Course.spaced (h : Course start past w) (hs : start.Sound) (hi : start.Indexed)
    (hclock : (tickTimes past).Pairwise fun later earlier => earlier ≤ later) (id : UInt32) :
    w.Spaced start.respawnDelay id past := by
  induction h with
  | start => exact ⟨List.Pairwise.nil, fun p _ last hlast => by cases hlast⟩
  | shuffle hcourse hshuffle ih =>
    refine ⟨(ih hclock).apart, fun p hp => (ih hclock).recalls p ?_⟩
    rwa [(hcourse.indexed hi).powerUps.find?_perm hshuffle.powerUps] at hp
  | @perform past w op hcourse ih =>
    cases htick : Moment.tickAt? ⟨w, op⟩ with
    | none =>
      rw [tickTimes, List.filterMap_cons, htick] at hclock
      exact (ih hclock).perform htick
    | some now =>
      obtain rfl : op = .tick now := by
        cases op with
        | tick at' => exact congrArg Operation.tick (Option.some.inj htick)
        | _ => cases htick
      obtain ⟨hnow, hearlier⟩ := List.pairwise_cons.mp hclock
      have hspaced := ih hearlier
      rw [← hcourse.delays_eq.2] at hspaced ⊢
      exact hspaced.tick (hcourse.sound hs) (hcourse.indexed hi).powerUps hnow

/-! ## 4. The whole course -/

/-- An operation that fires no beam adds none. -/
theorem mem_beams_of_not_shines (hk : Keyed w.tanks) (h : Moment.shines ⟨w, op⟩ = false) :
    ∀ b ∈ (w.perform op).1.beams, b ∈ w.beams := by
  cases hpull : op.pull? with
  | some pull =>
    obtain ⟨id, trigger, now⟩ := pull
    rw [shines_of_pull hk hpull, ← isSome_shot?_heeded id trigger now op w] at h
    rw [perform_of_pull hk hpull, ← heededBy_beams w op]
    cases hshot : (op.heeded w).shot? id trigger now with
    | none => exact fun b hb => hb
    | some s =>
      rw [hshot] at h
      obtain ⟨t, ht, hfires⟩ := Option.bind_eq_some_iff.mp hshot
      cases trigger with
      | idle => cases hfires
      | main =>
        dsimp only
        rw [release_main (heededBy_keyed hk op) ht hshot]
        exact fun b hb => hb
      | alt => simp at h
  | none =>
    cases op with
    | join id name =>
      change ∀ b ∈ (w.join id name).1.beams, b ∈ w.beams
      rcases join_cases id name w with ⟨_, hsame⟩ | ⟨_, hnew⟩
      · rw [hsame]
        exact fun b hb => hb
      · rw [hnew]
        exact fun b hb => hb
    | command | fire => cases hpull
    | tick now => exact fun b hb => (List.mem_filter.mp hb).1
    | disconnect | purge | snapshot => exact fun b hb => hb

/-- **The pickups of a tick** are of live tanks, each of one power-up, and load their takers. -/
theorem exists_loading_picks (hs : w.Sound) (hp : Keyed w.powerUps) (now : Time) :
    ∃ xs, w.TickPicks now xs ∧
      ((w.pickedUp now).map PowerUp.id).Perm (Pickup.ids xs) ∧ (Pickup.ids xs).Nodup ∧
      (∀ x ∈ xs, x.taker.isLive = true ∧
        (∃ t ∈ (w.struck now).1.tanks, ∃ ammo, x.taker = { t with ammo := ammo }) ∧
        x.taker.reload.ammo.toNat = min (x.taker.ammo.toNat + 1) 2) ∧
      ∀ id t, w.tank? id = some t → ∃ u, (w.tick now).tank? id = some u ∧
        u.ammo.toNat = min (t.ammo.toNat + (Pickup.takers xs).count id) 2 := by
  obtain ⟨xs, hxs⟩ := exists_tickPicks hs.keyed hp now
  obtain ⟨_, hnodup, _⟩ := Stock.Picks.powerUps hxs (moved_powerUps_keyed hp now)
  refine ⟨xs, hxs, (hxs.powerUps_eq hp).2, hnodup, fun x hx => ?_, fun id t ht => ?_⟩
  · obtain ⟨hlive, hbefore⟩ := Stock.Picks.exists_taker hxs x hx
    exact ⟨hlive, hbefore, x.taker.reload_ammo⟩
  · have hid : t.id = id := Table.ident_of_find? ht
    obtain ⟨u, hu, hloaded⟩ := Table.exists_found_after (fun _ _ hl => Tank.Loaded.id_eq hl)
      (hxs.loaded hs) ht
    exact ⟨u, hu, hid ▸ hloaded.ammo_eq⟩

/-- **A second trigger fires** exactly if there is a tank in play that has a charge. -/
theorem isSome_shot?_perform_alt (hk : Keyed w.tanks) {now : Time}
    (hpull : op.pull? = some (id, .alt, now)) :
    (w.perform op).2.shot?.isSome = true ↔
      ∃ t, w.tank? id = some t ∧ t.died = false ∧ t.disconnected = false ∧ 1 ≤ t.ammo.toNat := by
  rw [isSome_shot?_perform hk hpull, shot?]
  cases ht : w.tank? id with
  | none => simp
  | some t =>
    rw [Option.bind_some, Tank.isSome_shot?_alt, Tank.isLive]
    constructor
    · intro hready
      simp only [Bool.and_eq_true, Bool.not_eq_true', bne_iff_ne] at hready
      obtain ⟨⟨hdied, hplayer⟩, hcharge⟩ := hready
      exact ⟨t, rfl, hdied, hplayer,
        Nat.one_le_iff_ne_zero.mpr fun h0 => hcharge (UInt8.toNat_inj.mp h0)⟩
    · rintro ⟨u, hu, hdied, hplayer, hcharge⟩
      obtain rfl := Option.some.inj hu
      have hsome : t.ammo ≠ 0 := fun h0 => absurd hcharge (by rw [h0]; decide)
      simp [hdied, hplayer, hsome]

/-- **The beam of a second trigger** starts at the tank, along its aim, under the next id. -/
theorem exists_beam_of_alt (hk : Keyed w.tanks) {now : Time}
    (hpull : op.pull? = some (id, .alt, now)) {ray : UInt32}
    (hray : (w.perform op).2.shot? = some ray) :
    ray = w.nextObject ∧
      ∃ t b, w.tank? id = some t ∧ (op.heeded w).tank? id = some b ∧ b.location = t.location ∧
        (w.perform op).1 =
          { op.heeded w with
            tanks := Table.modify id Tank.discharge (op.heeded w).tanks
            beams := Table.put ⟨ray, b.location, b.aim, id, now⟩ w.beams
            nextObject := idAfter w.nextObject } := by
  obtain ⟨rfl, s, hshot, hafter⟩ := perform_of_fired hk hpull hray
  have hsome : (w.perform op).2.shot?.isSome = true := by rw [hray, Option.isSome_some]
  obtain ⟨t, ht, _⟩ := (isSome_shot?_perform_alt hk hpull).mp hsome
  obtain ⟨b, hb, hlocation, _⟩ := exists_heeded ht op
  refine ⟨rfl, t, b, ht, hb, hlocation, ?_⟩
  rw [hafter, release_alt (heededBy_keyed hk op) hb hshot, heededBy_beams, heededBy_nextObject]

/-- **A second trigger** costs its tank a charge if it fires, and no other tank anything. -/
theorem exists_ammo_of_alt (hk : Keyed w.tanks) {now : Time}
    (hpull : op.pull? = some (id, .alt, now)) {key : UInt32} {t : Tank K}
    (ht : w.tank? key = some t) :
    ∃ u, (w.perform op).1.tank? key = some u ∧
      u.ammo.toNat + (if key = id ∧ (w.perform op).2.shot?.isSome then 1 else 0)
        = t.ammo.toNat := by
  obtain ⟨b, hb, _, hammo⟩ := exists_heeded ht op
  have hafter := Table.find?_modify (fun t : Tank K => Tank.pull_id (op.heeded w).fireCooldown
    .alt now t) key id (op.heeded w).tanks
  have hfound : Table.find? key (op.heeded w).tanks = some b := hb
  rw [hfound, Option.map_some] at hafter
  rw [isSome_shot?_perform hk hpull, ← isSome_shot?_heeded id .alt now op w, tank?,
    perform_tanks_of_pull hk hpull, ← hammo]
  refine ⟨_, hafter, ?_⟩
  by_cases hkey : key = id
  · subst hkey
    have hcost := Tank.pull_ammo (op.heeded w).fireCooldown .alt now b
    simp only [true_and] at hcost
    simpa only [if_true, true_and, shot?_of_tank? hb] using hcost
  · rw [if_neg hkey, if_neg fun h => hkey h.1]
    rfl

/-- **Beams are paid for.**  In every world that a course leads to,

* all beams that were fired and all charges that are left are no more than all pickups;
* in a tick, whatever it is told, the power-ups that are picked up are picked up one after the
  other, each once and by a tank of the world that is live at that moment, and each tank has a
  charge more for each of its pickups, but never more than two;
* if ticks were told instants that never decrease, the pickups of one power-up are more than the
  respawn delay apart;
* a second trigger fires exactly if there is a tank with its id that is neither dead nor without its
  player and has a charge; this costs the tank a charge and no other tank anything, and the beam
  starts at the tank along its aim under the next id;
* what fires no beam in this sense adds none. -/
theorem beams_are_paid_for {settings : Settings K} {source : Source}
    (h : Course (ofSettings settings source) past w) :
    beamsFired past + w.totalAmmo ≤ pickups past ∧
    (∀ now, ∃ xs, w.TickPicks now xs ∧
      ((w.pickedUp now).map PowerUp.id).Perm (Pickup.ids xs) ∧ (Pickup.ids xs).Nodup ∧
      (∀ x ∈ xs, x.taker.isLive = true ∧
        (∃ t ∈ (w.struck now).1.tanks, ∃ ammo, x.taker = { t with ammo := ammo }) ∧
        x.taker.reload.ammo.toNat = min (x.taker.ammo.toNat + 1) 2) ∧
      ∀ id t, w.tank? id = some t → ∃ u, (w.tick now).tank? id = some u ∧
        u.ammo.toNat = min (t.ammo.toNat + (Pickup.takers xs).count id) 2) ∧
    ((tickTimes past).Pairwise (fun later earlier => earlier ≤ later) → ∀ id,
      (pickedAt id past).Pairwise fun later earlier =>
        earlier + Time.ofMillis settings.respawnRateMs < later) ∧
    (∀ op id now, op.pull? = some (id, .alt, now) →
      ((w.perform op).2.shot?.isSome = true ↔
        ∃ t, w.tank? id = some t ∧ t.died = false ∧ t.disconnected = false ∧ 1 ≤ t.ammo.toNat) ∧
      (∀ key t, w.tank? key = some t → ∃ u, (w.perform op).1.tank? key = some u ∧
        u.ammo.toNat + (if key = id ∧ (w.perform op).2.shot?.isSome then 1 else 0)
          = t.ammo.toNat) ∧
      (∀ ray, (w.perform op).2.shot? = some ray → ray = w.nextObject ∧
        ∃ t b, w.tank? id = some t ∧ (op.heeded w).tank? id = some b ∧ b.location = t.location ∧
          (w.perform op).1 =
            { op.heeded w with
              tanks := Table.modify id Tank.discharge (op.heeded w).tanks
              beams := Table.put ⟨ray, b.location, b.aim, id, now⟩ w.beams
              nextObject := idAfter w.nextObject })) ∧
    (∀ op, Moment.shines ⟨w, op⟩ = false → ∀ b ∈ (w.perform op).1.beams, b ∈ w.beams) := by
  have hstart := sound_ofSettings settings source
  have hnobody := ofSettings_tanks settings source
  have hindexed := indexed_ofSettings settings source
  have hsound : w.Sound := h.sound hstart
  have hk : Keyed w.tanks := hsound.keyed
  have hp : Keyed w.powerUps := (h.indexed hindexed).powerUps
  refine ⟨h.balance hstart hindexed hnobody, exists_loading_picks hsound hp, fun hclock id => ?_,
    fun op id now hpull => ⟨isSome_shot?_perform_alt hk hpull,
      fun key t ht => exists_ammo_of_alt hk hpull ht,
      fun ray hray => exists_beam_of_alt hk hpull hray⟩,
    fun op hdark => mem_beams_of_not_shines hk hdark⟩
  rw [← (ofSettings_delays settings source).2]
  exact (h.spaced hstart hindexed hclock id).apart

/-- A world so small that a tank in it is always within reach of its power-up, which comes back at
once. -/
def kioskSettings : Settings Float :=
  { universeSize := 10, fireCooldownMs := 0, respawnRateMs := 0, maxPowerUps := 1 }

/-- A tank that picks up, fires, and picks up again. -/
def kiosk : List (Operation Float) := [.join 1 "ada", .tick 1, .fire 1 .alt 2, .tick 3]

/-- A power-up comes back and is picked up in one tick. -/
theorem beams_are_paid_for_kiosk :
    let start := ofSettings kioskSettings (Source.ofSeed 8)
    ∃ past, Course start past (start.run kiosk) ∧ pickedAt 1 past = [3, 1] ∧
      beamsFired past + (start.run kiosk).totalAmmo ≤ pickups past ∧
      (pickedAt 1 past).Pairwise fun later earlier => earlier + Time.ofMillis 0 < later := by
  intro start
  obtain ⟨past, hcourse, hpicked, hclock⟩ : ∃ past, Course start past (start.run kiosk) ∧
      pickedAt 1 past = [3, 1] ∧
      (tickTimes past).Pairwise (fun later earlier => earlier ≤ later) :=
    ⟨_, course_run start kiosk, by decide +kernel⟩
  obtain ⟨hbalance, _, hapart, _, _⟩ := beams_are_paid_for hcourse
  exact ⟨past, hcourse, hpicked, hbalance, hapart hclock 1⟩

end World

end TankArena
