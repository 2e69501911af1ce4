import TankArena.Proofs.World.Course

/-!
# Between two shots

A tank remembers its last projectile, and nothing but the next one changes that: not its death, not
its return, not a beam, not what others do.  So the cooldown holds between any two of its
projectiles, whatever the instants that the operations are told, and it is the only thing that holds
a live tank back (`main_fire_waits`).

* `mainShots` are the instants of a tank's projectiles since it was added, the latest first.
* `Turns.lastFire_eq`: an operation changes the memory of a tank exactly when it fires.
* `Course.waits`: the memory is the latest of the shots, and they keep the cooldown apart.
-/

namespace TankArena

open Table (Keyed)

variable {K : Type} [Scalar K]

omit [Scalar K] in
theorem Tank.not_isLoaded_iff {cooldown : Nat} {now : Time} {t : Tank K} :
    ¬ t.isLoaded cooldown now = true ↔
      ∃ last, t.lastFire = some last ∧ now.elapsed last ≤ cooldown := by
  unfold isLoaded
  cases t.lastFire <;> simp

/-- When the tank with an id fired projectiles since it was added, the latest first. -/
def mainShots (id : UInt32) (past : List (Moment K)) : List Time :=
  (sinceJoin id past).filterMap (Moment.firedAt? id .main)

theorem mainShots_of_adds {id : UInt32} {m : Moment K} (h : m.adds id = true)
    (past : List (Moment K)) : mainShots id (m :: past) = [] := by
  rw [mainShots, sinceJoin_of_adds h]
  rfl

theorem mainShots_cons {id : UInt32} {m : Moment K} (h : m.adds id = false)
    (past : List (Moment K)) :
    mainShots id (m :: past) = (m.firedAt? id .main).toList ++ mainShots id past := by
  rw [mainShots, sinceJoin_of_not_adds h, List.filterMap_cons]
  cases m.firedAt? id .main <;> rfl

namespace World

variable {w : World K} {op : Operation K} {id : UInt32} {t u : Tank K}

/-! ## 1. One operation -/

/-- A tank fires in an operation that pulls its trigger, if it has something to fire. -/
theorem firedAt?_of_pull (hk : Keyed w.tanks) (ht : w.tank? id = some t) {trigger : Trigger}
    {now : Time} (h : op.pull? = some (id, trigger, now)) (wanted : Trigger) :
    Moment.firedAt? id wanted ⟨w, op⟩
      = if trigger = wanted ∧ (t.shot? w.fireCooldown trigger now).isSome then some now
        else none := by
  have hfires := isSome_shot?_perform hk h
  rw [shot?_of_tank? ht] at hfires
  rw [Moment.firedAt?, h]
  simp [Moment.outcome, hfires]

/-- A tank does not fire when another one's trigger is pulled. -/
theorem firedAt?_of_other {key : UInt32} {trigger : Trigger} {now : Time}
    (h : op.pull? = some (key, trigger, now)) (hkey : key ≠ id) (wanted : Trigger) :
    Moment.firedAt? id wanted ⟨w, op⟩ = none := by
  rw [Moment.firedAt?, h]
  exact if_neg fun hall => hkey hall.1

/-- **A projectile is remembered,** and nothing else changes the memory. -/
theorem Turns.lastFire_eq (hk : Keyed w.tanks) (ht : w.tank? id = some t)
    (h : w.Turns op t u) : u.lastFire = (Moment.firedAt? id .main ⟨w, op⟩).or t.lastFire := by
  have hid : t.id = id := Table.ident_of_find? ht
  have hpulls : ∀ {key : UInt32} {trigger : Trigger} {now : Time} {v : Tank K},
      op.pull? = some (key, trigger, now) → v.lastFire = t.lastFire →
      (v.shot? w.fireCooldown trigger now).isSome = (t.shot? w.fireCooldown trigger now).isSome →
      u = (if t.id = key then v.pull w.fireCooldown trigger now else t) →
      u.lastFire = (Moment.firedAt? id .main ⟨w, op⟩).or t.lastFire := by
    intro key trigger now v hpull hlast hshot hu
    by_cases hkey : t.id = key
    · obtain rfl : key = id := hkey.symm.trans hid
      rw [hu, if_pos hkey, Tank.pull_lastFire, hshot, hlast, firedAt?_of_pull hk ht hpull]
      split <;> rfl
    · rw [hu, if_neg hkey, firedAt?_of_other hpull fun hsame => hkey (hid.trans hsame.symm)]
      rfl
  cases op with
  | join key name =>
    obtain rfl : u = t := h
    rfl
  | disconnect key =>
    rw [Turns] at h
    rw [h]
    split <;> rfl
  | command key c now =>
    exact hpulls rfl (Tank.heed_lastFire c t) (Tank.isSome_shot?_heed c t _ _ _) h
  | fire key trigger now => exact hpulls rfl rfl rfl h
  | tick now =>
    obtain ⟨b, _, hreturns, hsettles⟩ := h
    obtain ⟨_, _, _, hstep⟩ := b.step_eq
    have hsame : u.lastFire = b.step.lastFire := congrArg Tank.Stance.lastFire hsettles.stance_eq
    have hback : b.lastFire = t.lastFire := by
      rcases hreturns.same_or_back with rfl | ⟨spot, rfl⟩
      · rfl
      · rfl
    rw [hsame, hstep]
    exact hback
  | purge | snapshot =>
    obtain rfl : u = { t with joined := false } := h
    rfl

/-- A tank that fires a projectile was loaded. -/
theorem isLoaded_of_firedAt? (hk : Keyed w.tanks) (ht : w.tank? id = some t) {now : Time}
    (h : Moment.firedAt? id .main ⟨w, op⟩ = some now) : t.isLoaded w.fireCooldown now = true := by
  cases hpull : op.pull? with
  | none =>
    rw [Moment.firedAt?, hpull] at h
    cases h
  | some pull =>
    obtain ⟨key, trigger, at'⟩ := pull
    by_cases hkey : key = id
    · subst hkey
      rw [firedAt?_of_pull hk ht hpull] at h
      split at h
      · rename_i hfired
        obtain ⟨rfl, hsome⟩ := hfired
        obtain rfl := Option.some.inj h
        rw [Tank.isSome_shot?_main, Bool.and_eq_true] at hsome
        exact hsome.2
      · cases h
    · rw [firedAt?_of_other hpull hkey] at h
      cases h

/-! ## 2. The whole course -/

variable {start : World K} {past : List (Moment K)}

/-- **Shots keep apart.**  By induction on the course: a tank fires only if the time since its last
shot exceeds the cooldown, and the shots before that are older still. -/
theorem Course.waits (h : Course start past w) (hs : start.Sound) (hnobody : start.tanks = [])
    (ht : w.tank? id = some t) :
    t.lastFire = (mainShots id past).head? ∧
      (mainShots id past).Pairwise fun later earlier => earlier + start.fireCooldown < later := by
  refine h.tank_induction (P := fun past t => t.lastFire = (mainShots id past).head? ∧
    (mainShots id past).Pairwise fun later earlier => earlier + start.fireCooldown < later)
    hs hnobody (fun m past name location hadds => ?_)
    (fun m past t u hcourse hadds ht hturns ih => ?_) ht
  · rw [mainShots_of_adds hadds]
    exact ⟨rfl, List.Pairwise.nil⟩
  · obtain ⟨hlast, hapart⟩ := ih
    have hk : Keyed m.world.tanks := (hcourse.sound hs).keyed
    rw [mainShots_cons hadds, hturns.lastFire_eq hk ht]
    cases hfired : Moment.firedAt? id .main m with
    | none => exact ⟨hlast, hapart⟩
    | some now =>
      refine ⟨rfl, apart_cons hapart fun last hshot => ?_⟩
      have hloaded : t.isLoaded start.fireCooldown now = true :=
        hcourse.delays_eq.1 ▸ isLoaded_of_firedAt? hk ht hfired
      have hcooled : start.fireCooldown < now.elapsed last := by
        simpa [Tank.isLoaded, hlast.trans hshot] using hloaded
      exact Nat.add_lt_of_lt_sub' hcooled

/-- **Main fire waits for the cooldown, and for nothing else.**  In every world that a course leads
to, whatever instants its operations were told, for every tank,

* of any two projectiles that it fired since it was added, the later one came more than the cooldown
  after the earlier one;
* its main trigger is refused exactly if the tank is not live, or its last projectile was fired,
  with no negative time in between, at most the cooldown ago;
* a refusal leaves the driving and the aim of the command, if it was one, and changes nothing else;
* a success is a projectile under the next id, at the place of the tank, along its aim; beyond that
  the tank remembers the instant, and the id is taken. -/
theorem main_fire_waits {settings : Settings K} {source : Source}
    (h : Course (ofSettings settings source) past w) (ht : w.tank? id = some t) :
    ((mainShots id past).Pairwise fun later earlier =>
      earlier + Time.ofMillis settings.fireCooldownMs < later) ∧
    ∀ op now, op.pull? = some (id, .main, now) →
      ((w.perform op).2.shot? = none ↔ t.isLive = false ∨
        ∃ last, (mainShots id past).head? = some last ∧
          now.elapsed last ≤ Time.ofMillis settings.fireCooldownMs) ∧
      ((w.perform op).2.shot? = none → (w.perform op).1 = op.heeded w) ∧
      (∀ shot, (w.perform op).2.shot? = some shot → shot = w.nextObject ∧
        ∃ b, (op.heeded w).tank? id = some b ∧ b.location = t.location ∧
          (w.perform op).1 =
            { op.heeded w with
              tanks := Table.modify id (Tank.shoot now) (op.heeded w).tanks
              projectiles := Table.put ⟨shot, b.location, b.aim, id, false⟩ w.projectiles
              nextObject := idAfter w.nextObject }) := by
  have hstart := sound_ofSettings settings source
  have hk : Keyed w.tanks := (h.sound hstart).keyed
  obtain ⟨hlast, hapart⟩ := h.waits hstart (ofSettings_tanks settings source) ht
  obtain ⟨hcooldown, _⟩ := ofSettings_delays settings source
  rw [hcooldown] at hapart
  refine ⟨hapart, fun op now hpull => ⟨?_, ?_, ?_⟩⟩
  · have hfires := isSome_shot?_perform hk hpull
    rw [shot?_of_tank? ht, Tank.isSome_shot?_main, h.delays_eq.1, hcooldown] at hfires
    rw [← Option.not_isSome_iff_eq_none, hfires, Bool.and_eq_true, not_and_or, Bool.not_eq_true,
      Tank.not_isLoaded_iff, hlast]
  · exact perform_of_refused hk hpull
  · intro shot hfired
    obtain ⟨b, hb, hlocation, _⟩ := exists_heeded ht op
    obtain ⟨rfl, s, hshot, hafter⟩ := perform_of_fired hk hpull hfired
    refine ⟨rfl, b, hb, hlocation, ?_⟩
    rw [hafter, release_main (heededBy_keyed hk op) hb hshot, heededBy_projectiles,
      heededBy_nextObject]

/-- A tank on its own that fires two projectiles. -/
def salute : List (Operation Float) := [.join 1 "ada", .fire 1 .main 1, .fire 1 .main 2]

/-- Even a cooldown of zero allows no third projectile at the instant of the second. -/
theorem main_fire_waits_salute :
    let w := (ofSettings duelSettings (Source.ofSeed 8)).run salute
    ∃ past t last, Course (ofSettings duelSettings (Source.ofSeed 8)) past w ∧
      w.tank? 1 = some t ∧ t.isLive = true ∧
      ((mainShots 1 past).Pairwise fun later earlier => earlier + Time.ofMillis 0 < later) ∧
      (w.perform (.fire 1 .main 2)).2.shot? = none ∧
      (mainShots 1 past).head? = some last ∧ Time.elapsed 2 last ≤ Time.ofMillis 0 := by
  intro w
  obtain ⟨hthere, hrefused⟩ : (w.tank? 1).map Tank.isLive = some true ∧
      (w.perform (.fire 1 .main 2)).2.shot? = none := by decide +kernel
  obtain ⟨t, ht, hlive⟩ := Option.map_eq_some_iff.mp hthere
  have hcourse := course_run (ofSettings duelSettings (Source.ofSeed 8)) salute
  obtain ⟨hapart, hfire⟩ := main_fire_waits hcourse ht
  rcases (hfire (.fire 1 .main 2) 2 rfl).1.mp hrefused with hdead | ⟨last, hlast, helapsed⟩
  · rw [hlive] at hdead
    cases hdead
  · exact ⟨_, t, last, hcourse, ht, hlive, hapart, hrefused, hlast, helapsed⟩

end World

end TankArena
