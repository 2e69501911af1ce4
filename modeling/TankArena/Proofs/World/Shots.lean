import TankArena.Proofs.World.Soundness

/-!
# What comes of a trigger

A trigger is pulled by a command or on its own.  This file takes the two apart, and what happens to
the tank from what becomes of the rest of the world.

* `Tank.pull` is the tank after its trigger, and `Tank.shot?` what it fires, if it fires: both are
  functions of the tank alone, its id included, and of the instant.
* A shot takes the next id and joins the table of its kind (`release`).  A world in which a trigger
  was pulled is the world with the tank changed and the shot released (`fire_eq`).
* A command is its driving and its aim, and then its trigger (`perform_of_pull`).
* An operation that is no tick touches tanks only, or releases one shot (`perform_cases`).

So one tank's triggers and commands change nothing of any other tank, and of the world they change
its shots only.
-/

namespace TankArena

open Table (Keyed)

variable {K : Type}

/-! ## 1. Shots -/

/-- What a tank fires, before it has an id. -/
inductive Shot (K : Type) where
  | projectile (location direction : Vec K) (owner : UInt32)
  | beam (origin direction : Vec K) (owner : UInt32) (createdAt : Time)

namespace Shot

/-- Who fired the shot. -/
def owner : Shot K → UInt32
  | projectile _ _ owner => owner
  | beam _ _ owner _ => owner

/-- The projectile that the shot is under an id. -/
def projectile? (id : UInt32) : Shot K → Option (Projectile K)
  | projectile location direction owner => some ⟨id, location, direction, owner, false⟩
  | beam _ _ _ _ => none

/-- The beam that the shot is under an id. -/
def beam? (id : UInt32) : Shot K → Option (Beam K)
  | projectile _ _ _ => none
  | beam origin direction owner createdAt => some ⟨id, origin, direction, owner, createdAt⟩

end Shot

namespace Tank

/-! ## 2. One tank -/

/-- The tank after it has pulled its trigger. -/
def pull (cooldown : Nat) (trigger : Trigger) (now : Time) (t : Tank K) : Tank K :=
  match trigger with
  | .idle => t
  | .main => if t.isLive && t.isLoaded cooldown now then t.shoot now else t
  | .alt => if t.isLive && t.ammo != 0 then t.discharge else t

/-- What the tank fires when it pulls its trigger. -/
def shot? (cooldown : Nat) (trigger : Trigger) (now : Time) (t : Tank K) : Option (Shot K) :=
  match trigger with
  | .idle => none
  | .main =>
    if t.isLive && t.isLoaded cooldown now then some (.projectile t.location t.aim t.id) else none
  | .alt => if t.isLive && t.ammo != 0 then some (.beam t.location t.aim t.id now) else none

variable {cooldown : Nat} {trigger : Trigger} {now : Time} {t : Tank K}

/-- **A trigger changes the time of the last shot and the ammunition alone.** -/
theorem pull_eq (cooldown : Nat) (trigger : Trigger) (now : Time) (t : Tank K) :
    ∃ lastFire ammo,
      t.pull cooldown trigger now = { t with lastFire := lastFire, ammo := ammo } := by
  cases trigger with
  | idle => exact ⟨t.lastFire, t.ammo, rfl⟩
  | main =>
    by_cases hready : (t.isLive && t.isLoaded cooldown now) = true
    · exact ⟨some now, t.ammo, if_pos hready⟩
    · exact ⟨t.lastFire, t.ammo, if_neg hready⟩
  | alt =>
    by_cases hready : (t.isLive && t.ammo != 0) = true
    · exact ⟨t.lastFire, t.ammo - 1, if_pos hready⟩
    · exact ⟨t.lastFire, t.ammo, if_neg hready⟩

@[simp] theorem pull_id (cooldown : Nat) (trigger : Trigger) (now : Time) (t : Tank K) :
    (t.pull cooldown trigger now).id = t.id := by
  obtain ⟨lastFire, ammo, hpull⟩ := pull_eq cooldown trigger now t
  rw [hpull]

/-- A tank that fires nothing is as it was. -/
theorem pull_of_shot?_eq_none (h : t.shot? cooldown trigger now = none) :
    t.pull cooldown trigger now = t := by
  cases trigger with
  | idle => rfl
  | main | alt =>
    refine if_neg fun hready => ?_
    rw [shot?, if_pos hready] at h
    cases h

theorem shot?_owner {s : Shot K} (h : t.shot? cooldown trigger now = some s) : s.owner = t.id := by
  cases trigger with
  | idle => cases h
  | main | alt =>
    simp only [shot?, Option.ite_none_right_eq_some, Option.some.injEq] at h
    obtain ⟨_, rfl⟩ := h
    rfl

theorem isSome_shot?_main :
    (t.shot? cooldown .main now).isSome = (t.isLive && t.isLoaded cooldown now) := by
  unfold shot?
  cases t.isLive && t.isLoaded cooldown now <;> rfl

theorem isSome_shot?_alt : (t.shot? cooldown .alt now).isSome = (t.isLive && t.ammo != 0) := by
  unfold shot?
  cases t.isLive && t.ammo != 0 <;> rfl

/-- What the main trigger fires, it fires from the tank along its aim. -/
theorem shoot_of_shot? {s : Shot K} (h : t.shot? cooldown .main now = some s) :
    s = .projectile t.location t.aim t.id ∧ t.pull cooldown .main now = t.shoot now := by
  simp only [shot?, Option.ite_none_right_eq_some, Option.some.injEq] at h
  obtain ⟨hready, rfl⟩ := h
  exact ⟨rfl, if_pos hready⟩

/-- What the second trigger fires costs a charge. -/
theorem discharge_of_shot? {s : Shot K} (h : t.shot? cooldown .alt now = some s) :
    s = .beam t.location t.aim t.id now ∧ t.pull cooldown .alt now = t.discharge := by
  simp only [shot?, Option.ite_none_right_eq_some, Option.some.injEq] at h
  obtain ⟨hready, rfl⟩ := h
  exact ⟨rfl, if_pos hready⟩

/-- A trigger makes a tank remember the instant exactly if it fires a projectile. -/
theorem pull_lastFire (cooldown : Nat) (trigger : Trigger) (now : Time) (t : Tank K) :
    (t.pull cooldown trigger now).lastFire
      = if trigger = .main ∧ (t.shot? cooldown trigger now).isSome then some now
        else t.lastFire := by
  cases trigger with
  | idle => rfl
  | main =>
    rw [isSome_shot?_main, pull]
    by_cases hready : (t.isLive && t.isLoaded cooldown now) = true
    · rw [if_pos hready, if_pos ⟨rfl, hready⟩]
      rfl
    · rw [if_neg hready, if_neg fun h => hready h.2]
  | alt =>
    rw [if_neg fun h => Trigger.noConfusion h.1, pull]
    split <;> rfl

/-- A trigger costs a charge exactly if it fires a beam. -/
theorem pull_ammo (cooldown : Nat) (trigger : Trigger) (now : Time) (t : Tank K) :
    (t.pull cooldown trigger now).ammo.toNat
        + (if trigger = .alt ∧ (t.shot? cooldown trigger now).isSome then 1 else 0)
      = t.ammo.toNat := by
  cases trigger with
  | idle => rfl
  | main =>
    rw [if_neg fun h => Trigger.noConfusion h.1, pull]
    split <;> rfl
  | alt =>
    rw [isSome_shot?_alt, pull]
    by_cases hready : (t.isLive && t.ammo != 0) = true
    · have hpos : 1 ≤ t.ammo.toNat := by
        rw [Bool.and_eq_true, bne_iff_ne] at hready
        exact Nat.one_le_iff_ne_zero.mpr fun h0 => hready.2 (UInt8.toNat_inj.mp h0)
      have hspent : t.discharge.ammo.toNat = t.ammo.toNat - 1 :=
        UInt8.toNat_sub_of_le _ _ (UInt8.le_iff_toNat_le.mpr hpos)
      rw [if_pos hready, if_pos ⟨rfl, hready⟩, hspent]
      omega
    · rw [if_neg hready, if_neg fun h => hready h.2]
      rfl

variable [Scalar K]

/-- The tank after the driving and the aim of a command; a tank whose player has gone takes none. -/
def heed (c : Command K) (t : Tank K) : Tank K := if t.disconnected then t else t.obey c

section Heed

variable (c : Command K) (t : Tank K)

@[simp] theorem heed_id : (t.heed c).id = t.id := by unfold heed; split <;> rfl
@[simp] theorem heed_location : (t.heed c).location = t.location := by unfold heed; split <;> rfl
@[simp] theorem heed_disconnected : (t.heed c).disconnected = t.disconnected := by
  unfold heed; split <;> rfl
@[simp] theorem heed_isLive : (t.heed c).isLive = t.isLive := by unfold heed; split <;> rfl
@[simp] theorem heed_ammo : (t.heed c).ammo = t.ammo := by unfold heed; split <;> rfl
@[simp] theorem heed_lastFire : (t.heed c).lastFire = t.lastFire := by unfold heed; split <;> rfl

/-- Whether a tank fires does not depend on its driving and its aim. -/
theorem isSome_shot?_heed (cooldown : Nat) (trigger : Trigger) (now : Time) :
    ((t.heed c).shot? cooldown trigger now).isSome = (t.shot? cooldown trigger now).isSome := by
  cases trigger with
  | idle => rfl
  | main =>
    rw [isSome_shot?_main, isSome_shot?_main, heed_isLive, isLoaded, isLoaded, heed_lastFire]
  | alt => rw [isSome_shot?_alt, isSome_shot?_alt, heed_isLive, heed_ammo]

end Heed

end Tank

/-! ## 3. The world -/

namespace World

variable {w : World K}

/-- The world with one more shot, which takes the next id. -/
def release (s : Shot K) (w : World K) : World K :=
  { w with
    projectiles := (s.projectile? w.nextObject).elim w.projectiles (Table.put · w.projectiles)
    beams := (s.beam? w.nextObject).elim w.beams (Table.put · w.beams)
    nextObject := idAfter w.nextObject }

/-- The world with a tank changed by its trigger. -/
def pulled (id : UInt32) (trigger : Trigger) (now : Time) (w : World K) : World K :=
  { w with tanks := Table.modify id (Tank.pull w.fireCooldown trigger now) w.tanks }

/-- What the tank with an id fires when it pulls its trigger. -/
def shot? (id : UInt32) (trigger : Trigger) (now : Time) (w : World K) : Option (Shot K) :=
  (w.tank? id).bind (Tank.shot? w.fireCooldown trigger now)

theorem shot?_of_tank? {id : UInt32} {t : Tank K} (ht : w.tank? id = some t) (trigger : Trigger)
    (now : Time) :
    w.shot? id trigger now = t.shot? w.fireCooldown trigger now := by
  rw [shot?, ht, Option.bind_some]

theorem pulled_of_shot?_eq_none (hk : Keyed w.tanks) {id : UInt32} {trigger : Trigger} {now : Time}
    (h : w.shot? id trigger now = none) : w.pulled id trigger now = w := by
  have htanks : Table.modify id (Tank.pull w.fireCooldown trigger now) w.tanks = w.tanks := by
    refine Table.modify_eq_self hk fun t ht => Tank.pull_of_shot?_eq_none ?_
    have htank : w.tank? id = some t := ht
    rwa [shot?, htank, Option.bind_some] at h
  rw [pulled, htanks]

/-- Only what a trigger makes of the tank that is found matters. -/
theorem pulled_eq (hk : Keyed w.tanks) {id : UInt32} {trigger : Trigger} {now : Time} {t : Tank K}
    (ht : w.tank? id = some t) {f : Tank K → Tank K}
    (hf : t.pull w.fireCooldown trigger now = f t) :
    w.pulled id trigger now = { w with tanks := Table.modify id f w.tanks } := by
  have hmodify : Table.modify id (Tank.pull w.fireCooldown trigger now) w.tanks
      = Table.modify id f w.tanks := by
    refine Table.modify_congr hk fun u hu => ?_
    obtain rfl : t = u := Option.some.inj (ht.symm.trans hu)
    exact hf
  rw [pulled, hmodify]

/-- What the main trigger makes of the world when it fires. -/
theorem release_main (hk : Keyed w.tanks) {id : UInt32} {now : Time} {t : Tank K} {s : Shot K}
    (ht : w.tank? id = some t) (h : w.shot? id .main now = some s) :
    (w.pulled id .main now).release s =
      { w with
        tanks := Table.modify id (Tank.shoot now) w.tanks
        projectiles := Table.put ⟨w.nextObject, t.location, t.aim, id, false⟩ w.projectiles
        nextObject := idAfter w.nextObject } := by
  rw [shot?_of_tank? ht] at h
  obtain ⟨rfl, hpull⟩ := Tank.shoot_of_shot? h
  have hid : t.id = id := Table.ident_of_find? ht
  rw [pulled_eq hk ht hpull, hid]
  rfl

/-- What the second trigger makes of the world when it fires. -/
theorem release_alt (hk : Keyed w.tanks) {id : UInt32} {now : Time} {t : Tank K} {s : Shot K}
    (ht : w.tank? id = some t) (h : w.shot? id .alt now = some s) :
    (w.pulled id .alt now).release s =
      { w with
        tanks := Table.modify id Tank.discharge w.tanks
        beams := Table.put ⟨w.nextObject, t.location, t.aim, id, now⟩ w.beams
        nextObject := idAfter w.nextObject } := by
  rw [shot?_of_tank? ht] at h
  obtain ⟨rfl, hpull⟩ := Tank.discharge_of_shot? h
  have hid : t.id = id := Table.ident_of_find? ht
  rw [pulled_eq hk ht hpull, hid]
  rfl

/-- **Firing** is the tank's trigger and then its shot. -/
theorem fire_eq (hk : Keyed w.tanks) (id : UInt32) (trigger : Trigger) (now : Time) :
    w.fire id trigger now =
      match w.shot? id trigger now with
      | none => (w, none)
      | some s => ((w.pulled id trigger now).release s, some w.nextObject) := by
  unfold fire shot?
  cases ht : w.tank? id with
  | none => rfl
  | some t =>
    dsimp only [Option.bind_some]
    by_cases hlive : t.isLive = true
    · rw [if_neg (by simp [hlive])]
      cases trigger with
      | idle => rfl
      | main =>
        by_cases hload : t.isLoaded w.fireCooldown now = true
        · have hpull : t.pull w.fireCooldown .main now = t.shoot now := by
            simp [Tank.pull, hlive, hload]
          have hpulled := pulled_eq hk ht (f := Tank.shoot now) hpull
          simp only [Tank.shot?, hlive, hload, Bool.and_self, if_true, hpulled]
          rfl
        · simp [Tank.shot?, hload]
      | alt =>
        by_cases hammo : t.ammo = 0
        · simp [Tank.shot?, hammo]
        · have hpull : t.pull w.fireCooldown .alt now = t.discharge := by
            simp [Tank.pull, hlive, hammo]
          have hpulled := pulled_eq hk ht (f := Tank.discharge) hpull
          have hcharge : (t.ammo != 0) = true := bne_iff_ne.mpr hammo
          simp only [Tank.shot?, hlive, hcharge, Bool.and_self, if_true, if_neg hammo, hpulled]
          rfl
    · rw [if_pos (by simp [hlive])]
      cases trigger <;> simp [Tank.shot?, hlive]

theorem fire_tanks_eq (hk : Keyed w.tanks) (id : UInt32) (trigger : Trigger) (now : Time) :
    (w.fire id trigger now).1.tanks = (w.pulled id trigger now).tanks := by
  rw [fire_eq hk]
  cases hshot : w.shot? id trigger now with
  | none => rw [pulled_of_shot?_eq_none hk hshot]
  | some s => rfl

/-- **A trigger changes the tank of its player and no other.** -/
theorem tank?_fire (hk : Keyed w.tanks) (id key : UInt32) (trigger : Trigger) (now : Time) :
    (w.fire key trigger now).1.tank? id
      = (w.tank? id).map fun t => if id = key then t.pull w.fireCooldown trigger now else t := by
  unfold tank?
  rw [fire_tanks_eq hk]
  exact Table.find?_modify (fun t => Tank.pull_id _ _ _ t) id key w.tanks

/-- Without its player a tank fires nothing. -/
theorem fire_of_gone {id : UInt32} (h : ∀ t, w.tank? id = some t → t.disconnected = true)
    (trigger : Trigger) (now : Time) : w.fire id trigger now = (w, none) := by
  unfold fire
  cases ht : w.tank? id with
  | none => rfl
  | some t => exact if_pos (by simp [Tank.isLive, h t ht])

/-- The world with the driving and the aim of a command to a tank. -/
def heeded [Scalar K] (id : UInt32) (c : Command K) (w : World K) : World K :=
  { w with tanks := Table.modify id (Tank.heed c) w.tanks }

variable [Scalar K]

theorem tank?_heeded (id key : UInt32) (c : Command K) (w : World K) :
    (w.heeded key c).tank? id
      = (w.tank? id).map fun t => if id = key then t.heed c else t :=
  Table.find?_modify (fun t => Tank.heed_id c t) id key w.tanks

theorem heeded_keyed (hk : Keyed w.tanks) (id : UInt32) (c : Command K) :
    Keyed (w.heeded id c).tanks :=
  hk.modify id fun t => Tank.heed_id c t

/-- **A command** is its driving and its aim, and then its trigger.  A tank whose player has gone
heeds nothing and fires nothing. -/
theorem command_eq (hk : Keyed w.tanks) (id : UInt32) (c : Command K) (now : Time) :
    w.command id c now = (w.heeded id c).fire id c.trigger now := by
  have hgone : (∀ t, w.tank? id = some t → t.disconnected = true) →
      (w, none) = (w.heeded id c).fire id c.trigger now := by
    intro h
    have hsame : Table.modify id (Tank.heed c) w.tanks = w.tanks :=
      Table.modify_eq_self hk fun t ht => if_pos (h t ht)
    rw [heeded, hsame, fire_of_gone h]
  unfold command
  cases ht : w.tank? id with
  | none => exact hgone fun t h => absurd (ht.symm.trans h) (by simp)
  | some t =>
    dsimp only
    by_cases hplayer : t.disconnected = true
    · rw [if_pos hplayer]
      exact hgone fun u hu => Option.some.inj (ht.symm.trans hu) ▸ hplayer
    · have hobey : Table.modify id (Tank.obey c) w.tanks
          = Table.modify id (Tank.heed c) w.tanks := by
        refine Table.modify_congr hk fun u hu => ?_
        obtain rfl : t = u := Option.some.inj (ht.symm.trans hu)
        exact (if_neg hplayer).symm
      rw [if_neg hplayer, hobey, heeded]

/-- **A command changes the tank that it is for and no other.** -/
theorem tank?_command (hk : Keyed w.tanks) (id key : UInt32) (c : Command K) (now : Time) :
    (w.command key c now).1.tank? id
      = (w.tank? id).map fun t =>
          if id = key then (t.heed c).pull w.fireCooldown c.trigger now else t := by
  rw [command_eq hk, tank?_fire (heeded_keyed hk key c), tank?_heeded, Option.map_map]
  refine Option.map_congr fun t _ => ?_
  by_cases hid : id = key
  · simp [hid, heeded]
  · simp [hid]

end World

/-! ## 4. Pulls -/

/-- Whose trigger an operation pulls, which one it is, and when. -/
def Operation.pull? : Operation K → Option (UInt32 × Trigger × Time)
  | .command id c now => some (id, c.trigger, now)
  | .fire id trigger now => some (id, trigger, now)
  | _ => none

/-- The world after the driving and the aim of an operation. -/
def Operation.heeded [Scalar K] (w : World K) : Operation K → World K
  | .command id c _ => w.heeded id c
  | _ => w

/-- The id of what was fired. -/
def Outcome.shot? : Outcome K → Option UInt32
  | .fired id => id
  | _ => none

namespace World

variable [Scalar K] {w : World K} {op : Operation K} {id : UInt32} {trigger : Trigger} {now : Time}

theorem heededBy_keyed (hk : Keyed w.tanks) (op : Operation K) : Keyed (op.heeded w).tanks := by
  cases op with
  | command key c now => exact heeded_keyed hk key c
  | _ => exact hk

theorem heededBy_projectiles (w : World K) (op : Operation K) :
    (op.heeded w).projectiles = w.projectiles := by
  cases op <;> rfl

theorem heededBy_nextObject (w : World K) (op : Operation K) :
    (op.heeded w).nextObject = w.nextObject := by
  cases op <;> rfl

theorem heededBy_beams (w : World K) (op : Operation K) : (op.heeded w).beams = w.beams := by
  cases op <;> rfl

/-- A tank that has heeded a command is where it was and has the charges that it had. -/
theorem exists_heeded {t : Tank K} (ht : w.tank? id = some t) (op : Operation K) :
    ∃ b, (op.heeded w).tank? id = some b ∧ b.location = t.location ∧ b.ammo = t.ammo := by
  cases op with
  | command key c now =>
    rw [Operation.heeded, tank?_heeded, ht, Option.map_some]
    refine ⟨_, rfl, ?_⟩
    split
    · exact ⟨Tank.heed_location c t, Tank.heed_ammo c t⟩
    · exact ⟨rfl, rfl⟩
  | _ => exact ⟨t, ht, rfl, rfl⟩

/-- Whether a tank fires does not depend on the driving and the aim of a command. -/
theorem isSome_shot?_heeded (id : UInt32) (trigger : Trigger) (now : Time) (op : Operation K)
    (w : World K) :
    ((op.heeded w).shot? id trigger now).isSome = (w.shot? id trigger now).isSome := by
  cases op with
  | command key c at' =>
    unfold shot?
    rw [Operation.heeded, tank?_heeded]
    cases w.tank? id with
    | none => rfl
    | some t =>
      rw [Option.map_some, Option.bind_some, Option.bind_some]
      split
      · exact Tank.isSome_shot?_heed c t w.fireCooldown trigger now
      · rfl
  | _ => rfl

/-- **Pulling a trigger**, by a command or on its own.  A tank that fires nothing has heeded its
command, and that is all; otherwise its trigger has changed it and its shot is released. -/
theorem perform_of_pull (hk : Keyed w.tanks) (h : op.pull? = some (id, trigger, now)) :
    w.perform op =
      match (op.heeded w).shot? id trigger now with
      | none => (op.heeded w, .fired none)
      | some s =>
        (((op.heeded w).pulled id trigger now).release s, .fired (some w.nextObject)) := by
  have hpull : w.perform op = (((op.heeded w).fire id trigger now).1,
      .fired ((op.heeded w).fire id trigger now).2) ∧ (op.heeded w).nextObject = w.nextObject := by
    cases op with
    | command key c at' =>
      obtain ⟨rfl, rfl, rfl⟩ : key = id ∧ c.trigger = trigger ∧ at' = now := by
        simpa [Operation.pull?] using h
      have hperform : w.perform (.command key c at')
          = ((w.command key c at').1, .fired (w.command key c at').2) := rfl
      rw [hperform, command_eq hk]
      exact ⟨rfl, rfl⟩
    | fire key pulled at' =>
      obtain ⟨rfl, rfl, rfl⟩ : key = id ∧ pulled = trigger ∧ at' = now := by
        simpa [Operation.pull?] using h
      exact ⟨rfl, rfl⟩
    | join | disconnect | tick | purge | snapshot => cases h
  rw [hpull.1, fire_eq (heededBy_keyed hk op), hpull.2]
  cases (op.heeded w).shot? id trigger now <;> rfl

theorem perform_tanks_of_pull (hk : Keyed w.tanks) (h : op.pull? = some (id, trigger, now)) :
    (w.perform op).1.tanks = ((op.heeded w).pulled id trigger now).tanks := by
  rw [perform_of_pull hk h]
  cases hshot : (op.heeded w).shot? id trigger now with
  | none => rw [pulled_of_shot?_eq_none (heededBy_keyed hk op) hshot]
  | some s => rfl

/-- What is refused is heeded, and that is all. -/
theorem perform_of_refused (hk : Keyed w.tanks) (h : op.pull? = some (id, trigger, now))
    (hrefused : (w.perform op).2.shot? = none) : (w.perform op).1 = op.heeded w := by
  rw [perform_of_pull hk h] at hrefused ⊢
  cases hshot : (op.heeded w).shot? id trigger now with
  | none => rfl
  | some s =>
    rw [hshot] at hrefused
    cases hrefused

/-- What is fired has the next id and is released. -/
theorem perform_of_fired (hk : Keyed w.tanks) (h : op.pull? = some (id, trigger, now))
    {shot : UInt32} (hfired : (w.perform op).2.shot? = some shot) :
    shot = w.nextObject ∧ ∃ s, (op.heeded w).shot? id trigger now = some s ∧
      (w.perform op).1 = ((op.heeded w).pulled id trigger now).release s := by
  rw [perform_of_pull hk h] at hfired ⊢
  cases hshot : (op.heeded w).shot? id trigger now with
  | none =>
    rw [hshot] at hfired
    cases hfired
  | some s =>
    rw [hshot] at hfired
    exact ⟨(Option.some.inj hfired).symm, s, rfl, rfl⟩

/-- A trigger that is pulled fires exactly if the tank has something to fire. -/
theorem isSome_shot?_perform (hk : Keyed w.tanks) (h : op.pull? = some (id, trigger, now)) :
    (w.perform op).2.shot?.isSome = (w.shot? id trigger now).isSome := by
  rw [perform_of_pull hk h, ← isSome_shot?_heeded id trigger now op w]
  cases (op.heeded w).shot? id trigger now <;> rfl

/-! ## 5. All but the tanks -/

omit [Scalar K] in
theorem fire_releases (id : UInt32) (trigger : Trigger) (now : Time) (w : World K) :
    (∃ tanks, (w.fire id trigger now).1 = { w with tanks := tanks } ∧
      (w.fire id trigger now).2 = none) ∨
    (∃ tanks s, (w.fire id trigger now).1 = { w with tanks := tanks }.release s ∧
      (w.fire id trigger now).2 = some w.nextObject) := by
  rcases fire_cases id trigger now w with hnone | ⟨t, _, _, _, _, hmain⟩ | ⟨t, _, _, _, _, halt⟩
  · rw [hnone]
    exact Or.inl ⟨w.tanks, rfl, rfl⟩
  · rw [hmain]
    exact Or.inr ⟨_, .projectile t.location t.aim t.id, rfl, rfl⟩
  · rw [halt]
    exact Or.inr ⟨_, .beam t.location t.aim t.id now, rfl, rfl⟩

/-- **What an operation can do to all but the tanks.**  It is a tick, or at the most it draws a
place, or it releases one shot under the next id. -/
theorem perform_cases (w : World K) (op : Operation K) :
    (∃ now, op = .tick now) ∨
    (∃ tanks source, (w.perform op).1 = { w with tanks := tanks, source := source } ∧
      (w.perform op).2.shot? = none) ∨
    (∃ tanks s, (w.perform op).1 = { w with tanks := tanks }.release s ∧
      (w.perform op).2.shot? = some w.nextObject) := by
  cases op with
  | tick now => exact Or.inl ⟨now, rfl⟩
  | disconnect | purge | snapshot => exact Or.inr (Or.inl ⟨_, w.source, rfl, rfl⟩)
  | join id name =>
    refine Or.inr (Or.inl ?_)
    change ∃ tanks source, (w.join id name).1 = { w with tanks := tanks, source := source } ∧ _
    rcases join_cases id name w with ⟨_, hsame⟩ | ⟨_, hnew⟩
    · rw [hsame]
      exact ⟨w.tanks, w.source, rfl, rfl⟩
    · rw [hnew]
      exact ⟨_, _, rfl, rfl⟩
  | fire id trigger now =>
    refine Or.inr ?_
    rcases fire_releases id trigger now w with ⟨tanks, hworld, hshot⟩ | ⟨tanks, s, hworld, hshot⟩
    · exact Or.inl ⟨tanks, w.source, hworld, hshot⟩
    · exact Or.inr ⟨tanks, s, hworld, hshot⟩
  | command id c now =>
    refine Or.inr ?_
    change (∃ tanks source, (w.command id c now).1 = _ ∧ (w.command id c now).2 = none) ∨
      ∃ tanks s, (w.command id c now).1 = _ ∧ (w.command id c now).2 = some w.nextObject
    rcases command_cases id c now w with hnone | ⟨_, _, _, hobeys⟩
    · rw [hnone]
      exact Or.inl ⟨w.tanks, w.source, rfl, rfl⟩
    · rw [hobeys]
      rcases fire_releases id c.trigger now _ with ⟨tanks, hworld, hshot⟩ | ⟨tanks, s, hworld, hshot⟩
      · exact Or.inl ⟨tanks, w.source, hworld, hshot⟩
      · exact Or.inr ⟨tanks, s, hworld, hshot⟩

end World

end TankArena
