import TankArena.Proofs.World.Course
import TankArena.Proofs.World.Meetings

/-!
# Time is relative

A world remembers instants: when a tank fired last, when a tank or a power-up died, when a beam was
made.  All that it does with them is to see how much time has passed since.  So a world in which
everything happened some time later (`World.later`), and that is told everything that much later,
does the same.

* `later` goes through every function of single things, and through every stage of a tick, since
  changes and visits of tables do (`Table.modify_map`, `Table.put_map`, `Table.visit_map`).
* One operation done later has the same outcome and leads to the same world, later
  (`perform_later`).
* At the beginning a world remembers no instant (`ofSettings_later`), so whole runs and courses can
  be told later (`time_is_relative`).
-/

namespace TankArena

open Identified (ident)

/-! ## 1. Tables of which everything changes -/

namespace Table

section Map

variable {α : Type} [Identified α] {g : α → α}

theorem has_map (hg : ∀ x, ident (g x) = ident x) (id : UInt32) (xs : List α) :
    has id (xs.map g) = has id xs := by
  simp only [has, List.any_map, Function.comp_def, hg]

theorem modify_map {f k : α → α} (hg : ∀ x, ident (g x) = ident x)
    (hf : ∀ x, f (g x) = g (k x)) (id : UInt32) (xs : List α) :
    modify id f (xs.map g) = (modify id k xs).map g := by
  simp only [modify, List.map_map]
  refine List.map_congr_left fun x _ => ?_
  simp only [Function.comp_apply, hg, hf]
  split <;> rfl

theorem put_map (hg : ∀ x, ident (g x) = ident x) (x : α) (xs : List α) :
    put (g x) (xs.map g) = (put x xs).map g := by
  simp only [put, List.map_append, List.map_singleton, List.filter_map, Function.comp_def, hg]

end Map

theorem deal_map {β γ σ : Type} {due due' : β → Bool} {d : σ → γ × σ} {give : γ → β → β}
    {g : β → β} (hdue : ∀ x, due' (g x) = due x) (hgive : ∀ c x, give c (g x) = g (give c x))
    (s : σ) (x : β) :
    deal due' d give (id s) (g x)
      = (g (deal due d give s x).1, id (deal due d give s x).2) := by
  unfold deal
  rw [hdue]
  split
  · rw [id_eq, hgive]
    rfl
  · rfl

/-- A visit to changed things with a changed state, if it is the change of what a visit does to
each. -/
theorem visit_map {β σ τ : Type} {f : τ → β → β × τ} {f' : σ → β → β × σ} {g : β → β} {h : σ → τ}
    (hf : ∀ s x, f (h s) (g x) = (g (f' s x).1, h (f' s x).2)) (s : σ) (xs : List β) :
    visit f (h s) (xs.map g) = ((visit f' s xs).1.map g, h (visit f' s xs).2) := by
  induction xs generalizing s with
  | nil => rfl
  | cons x xs ih => rw [List.map_cons, visit_cons, visit_cons, hf, ih, List.map_cons]

end Table

variable {K : Type} {d : Nat}

/-! ## 2. Single things -/

/-- An instant that is remembered, some time later. -/
def laterInstant (d : Nat) (at? : Option Time) : Option Time := at?.map (· + d)

namespace Tank

/-- The tank with all that it remembers some time later. -/
def later (d : Nat) (t : Tank K) : Tank K :=
  { t with lastFire := laterInstant d t.lastFire, diedAt := laterInstant d t.diedAt }

variable (t : Tank K) (now : Time)

theorem later_ident : ident (t.later d) = ident t := rfl

@[simp] theorem later_id : (t.later d).id = t.id := rfl
@[simp] theorem later_isLive : (t.later d).isLive = t.isLive := rfl
@[simp] theorem later_disconnected : (t.later d).disconnected = t.disconnected := rfl
@[simp] theorem later_ammo : (t.later d).ammo = t.ammo := rfl
@[simp] theorem later_isFrail : (t.later d).isFrail = t.isFrail := rfl
@[simp] theorem later_record : (t.later d).record = t.record := rfl

theorem later_isLoaded (cooldown : Nat) :
    (t.later d).isLoaded cooldown (now + d) = t.isLoaded cooldown now := by
  unfold isLoaded later laterInstant
  cases t.lastFire with
  | none => rfl
  | some last =>
    simp only [Option.map_some]
    rw [Time.elapsed_add]

theorem later_revive (location : Vec K) :
    (t.later d).revive location = (t.revive location).later d := rfl

theorem later_damage : (t.later d).damage (now + d) = (t.damage now).later d := by
  unfold damage
  rw [later_isFrail]
  split <;> rfl

theorem later_isDue (delay : Nat) : (t.later d).isDue delay (now + d) = t.isDue delay now := by
  unfold isDue later laterInstant
  cases t.diedAt with
  | none => rfl
  | some since =>
    simp only [Option.map_some, Option.any_some]
    rw [Time.elapsed_add]

variable [Scalar K]

theorem later_step : (t.later d).step = t.step.later d := by
  have hdrive : (t.later d).drive = t.drive := rfl
  unfold step
  rw [later_isLive]
  split
  · rfl
  · simp only [hdrive]
    cases (t.drive.unit? : Option (Vec K)) <;> rfl

theorem later_rebound (boxes : List (WallBox K)) :
    (t.later d).rebound boxes = (t.rebound boxes).later d := by
  unfold rebound
  rw [later_isLive]
  change (if (t.isLive && boxes.any fun box => box.overlapsTank t.location) = true then _ else _)
    = _
  split <;> rfl

end Tank

namespace PowerUp

/-- The power-up with all that it remembers some time later. -/
def later (d : Nat) (p : PowerUp K) : PowerUp K := { p with diedAt := laterInstant d p.diedAt }

variable (p : PowerUp K)

@[simp] theorem later_record : (p.later d).record = p.record := rfl

theorem later_revive (location : Vec K) :
    (p.later d).revive location = (p.revive location).later d := rfl

theorem later_isDue (delay : Nat) (now : Time) :
    (p.later d).isDue delay (now + d) = p.isDue delay now := by
  unfold isDue later laterInstant
  cases p.diedAt with
  | none => rfl
  | some since =>
    simp only [Option.map_some, Option.any_some]
    rw [Time.elapsed_add]

end PowerUp

namespace Beam

/-- The beam, made some time later. -/
def later (d : Nat) (b : Beam K) : Beam K := { b with createdAt := b.createdAt + d }

@[simp] theorem later_record (b : Beam K) : (b.later d).record = b.record := rfl

theorem later_isFresh (b : Beam K) (now : Time) :
    (b.later d).isFresh (now + d) = b.isFresh now := by
  unfold isFresh later
  rw [Time.elapsed_add]

end Beam

/-! ## 3. Meetings -/

theorem Tank.later_foldl_reload {β : Type} (xs : List β) (t : Tank K) :
    xs.foldl (fun t _ => t.reload) (t.later d) = (xs.foldl (fun t _ => t.reload) t).later d := by
  induction xs generalizing t with
  | nil => rfl
  | cons x xs ih => exact ih t.reload

theorem Toll.later_award (toll : Toll K) :
    ({ toll with tanks := toll.tanks.map (Tank.later d) } : Toll K).award
      = toll.award.map (Tank.later d) := by
  rw [award_eq, award_eq, List.map_map, List.map_map]
  rfl

section Meetings

variable [Scalar K] (now : Time)

theorem Tank.later_collect (powerUps : List (PowerUp K)) (t : Tank K) :
    (t.later d).collect (now + d) (powerUps.map (PowerUp.later d))
      = ((t.collect now powerUps).1.later d, (t.collect now powerUps).2.map (PowerUp.later d)) := by
  unfold collect
  rw [later_isLive]
  split
  · have hfilter : ((powerUps.map (PowerUp.later d)).filter (t.later d).reaches)
        = (powerUps.filter t.reaches).map (PowerUp.later d) := List.filter_map
    rw [hfilter, List.foldl_map, later_foldl_reload, List.map_map, List.map_map]
    refine congrArg _ (List.map_congr_left fun p _ => ?_)
    change (if t.reaches p = true then _ else _)
      = PowerUp.later d (if t.reaches p = true then _ else _)
    split <;> rfl
  · rfl

namespace Toll

/-- The toll with all that its tanks remember some time later. -/
def later (d : Nat) (toll : Toll K) : Toll K := { toll with tanks := toll.tanks.map (Tank.later d) }

theorem later_strike (toll : Toll K) (p : Projectile K) :
    (toll.later d).strike (now + d) p
      = ((toll.strike now p).1, (toll.strike now p).2.later d) := by
  have hfind : (toll.later d).tanks.find? p.hits = (toll.tanks.find? p.hits).map (Tank.later d) :=
    List.find?_map ..
  unfold strike
  split
  · rfl
  · rw [hfind]
    cases toll.tanks.find? p.hits with
    | none => rfl
    | some t =>
      have hmodify := Table.modify_map (Tank.later_ident (d := d))
        (fun t => Tank.later_damage t now) t.id toll.tanks
      simp only [Option.map_some, later, Tank.later_id, Tank.later_isFrail, hmodify]
      rfl

theorem later_burn (toll : Toll K) (b : Beam K) :
    (toll.later d).burn (now + d) (b.later d) = (toll.burn now b).later d := by
  have hhits : ∀ t : Tank K, (b.later d).hits (t.later d) = b.hits t := fun _ => rfl
  simp only [burn, later, List.map_map, List.countP_map, Function.comp_def, hhits]
  refine congrArg (Toll.mk · _) (List.map_congr_left fun t _ => ?_)
  split <;> rfl

theorem later_foldl_burn (bs : List (Beam K)) (toll : Toll K) :
    (bs.map (Beam.later d)).foldl (burn (now + d)) (toll.later d)
      = (bs.foldl (burn now) toll).later d := by
  induction bs generalizing toll with
  | nil => rfl
  | cons b bs ih => rw [List.map_cons, List.foldl_cons, List.foldl_cons, later_burn, ih]

end Toll

end Meetings

namespace World

/-! ## 4. The world -/

/-- The world with all that is remembered in it some time later. -/
def later (d : Nat) (w : World K) : World K :=
  { w with
    tanks := w.tanks.map (Tank.later d)
    powerUps := w.powerUps.map (PowerUp.later d)
    beams := w.beams.map (Beam.later d) }

end World

/-- The operation, told some time later. -/
def Operation.later (d : Nat) : Operation K → Operation K
  | .join id name => .join id name
  | .disconnect id => .disconnect id
  | .command id c now => .command id c (now + d)
  | .fire id trigger now => .fire id trigger (now + d)
  | .tick now => .tick (now + d)
  | .purge => .purge
  | .snapshot => .snapshot

/-- The moment, some time later. -/
def Moment.later (d : Nat) (m : Moment K) : Moment K := ⟨m.world.later d, m.op.later d⟩

namespace World

variable (w : World K) (now : Time)

@[simp] theorem later_tanks : (w.later d).tanks = w.tanks.map (Tank.later d) := rfl
@[simp] theorem later_projectiles : (w.later d).projectiles = w.projectiles := rfl
@[simp] theorem later_powerUps : (w.later d).powerUps = w.powerUps.map (PowerUp.later d) := rfl
@[simp] theorem later_beams : (w.later d).beams = w.beams.map (Beam.later d) := rfl
@[simp] theorem later_source : (w.later d).source = w.source := rfl
@[simp] theorem later_respawnDelay : (w.later d).respawnDelay = w.respawnDelay := rfl
@[simp] theorem later_half [Scalar K] : (w.later d).half = w.half := rfl

theorem later_tank? (id : UInt32) : (w.later d).tank? id = (w.tank? id).map (Tank.later d) :=
  Table.find?_map Tank.later_ident id w.tanks

theorem later_modify {f k : Tank K → Tank K} (hf : ∀ t, f (t.later d) = (k t).later d)
    (id : UInt32) :
    ({ w.later d with tanks := Table.modify id f (w.later d).tanks } : World K)
      = ({ w with tanks := Table.modify id k w.tanks } : World K).later d := by
  have hmodify := Table.modify_map (Tank.later_ident (d := d)) hf id w.tanks
  simp only [later, hmodify]

theorem later_shine (t : Tank K) :
    (w.later d).shine (t.later d) (now + d) = ((w.shine t now).1.later d, (w.shine t now).2) := by
  have hput := Table.put_map (g := Beam.later d) (fun _ => rfl)
    ⟨w.nextObject, t.location, t.aim, t.id, now⟩ w.beams
  unfold shine
  simp only [later, ← hput]
  rfl

/-- **A trigger** pulled later. -/
theorem later_fire (id : UInt32) (trigger : Trigger) :
    (w.later d).fire id trigger (now + d)
      = ((w.fire id trigger now).1.later d, (w.fire id trigger now).2) := by
  unfold fire
  rw [later_tank?]
  cases w.tank? id with
  | none => rfl
  | some t =>
    dsimp only [Option.map_some]
    rw [Tank.later_isLive]
    cases t.isLive with
    | false => rfl
    | true =>
      cases trigger with
      | idle => rfl
      | main =>
        have hload : (t.later d).isLoaded (w.later d).fireCooldown (now + d)
            = t.isLoaded w.fireCooldown now := t.later_isLoaded now w.fireCooldown
        have hfired := w.later_modify (d := d) (f := fun t => { t with lastFire := some (now + d) })
          (k := fun t => { t with lastFire := some now }) (fun _ => rfl) id
        simp only [Bool.not_true, Bool.false_eq_true, if_false, hload, hfired]
        cases t.isLoaded w.fireCooldown now <;> rfl
      | alt =>
        have hspent := w.later_modify (d := d) (f := fun t => { t with ammo := t.ammo - 1 })
          (k := fun t => { t with ammo := t.ammo - 1 }) (fun _ => rfl) id
        simp only [Bool.not_true, Bool.false_eq_true, if_false, Tank.later_ammo, hspent]
        by_cases hammo : t.ammo = 0
        · simp only [hammo, if_true]
        · simp only [hammo, if_false, later_shine]

variable [Scalar K]

theorem later_command (id : UInt32) (c : Command K) :
    (w.later d).command id c (now + d)
      = ((w.command id c now).1.later d, (w.command id c now).2) := by
  unfold command
  rw [later_tank?]
  cases w.tank? id with
  | none => rfl
  | some t =>
    have hobeyed := w.later_modify (d := d) (f := Tank.obey c) (k := Tank.obey c) (fun _ => rfl) id
    dsimp only [Option.map_some]
    rw [Tank.later_disconnected, hobeyed, later_fire]
    cases t.disconnected <;> rfl

theorem later_join (id : UInt32) (name : String) :
    (w.later d).join id name = ((w.join id name).1.later d, (w.join id name).2) := by
  have hhas : Table.has id (w.later d).tanks = Table.has id w.tanks :=
    Table.has_map Tank.later_ident id w.tanks
  have hput := Table.put_map (Tank.later_ident (d := d))
    (Tank.fresh id (Text.trim name) (w.source.place w.half).1) w.tanks
  unfold join
  rw [hhas]
  cases Table.has id w.tanks with
  | true => rfl
  | false =>
    simp only [Bool.false_eq_true, if_false, later, ← hput]
    rfl

omit [Scalar K] in
theorem later_disconnect (id : UInt32) :
    (w.later d).disconnect id = (w.disconnect id).later d :=
  w.later_modify (f := Tank.disconnect) (fun _ => rfl) id

omit [Scalar K] in
theorem later_purge : (w.later d).purge = (w.purge.1.later d, w.purge.2) := by
  simp only [purge, later, List.filter_map, List.map_map]
  rfl

omit [Scalar K] in
theorem later_records : (w.later d).records = w.records := by
  simp only [records, later, List.map_map]
  rfl

/-! ## 5. A tick -/

theorem later_respawn : (w.later d).respawn (now + d) = (w.respawn now).later d := by
  have htanks := Table.visit_map (h := id)
    (Table.deal_map (d := fun source : Source => source.place w.half)
      (fun t : Tank K => t.later_isDue (d := d) now w.respawnDelay)
      fun location t => t.later_revive location)
    w.source w.tanks
  have hpowerUps := fun source => Table.visit_map (h := id)
    (Table.deal_map (d := fun source : Source => source.place w.half)
      (fun p : PowerUp K => p.later_isDue (d := d) w.respawnDelay now)
      fun location p => p.later_revive location)
    source w.powerUps
  simp only [id_eq] at htanks hpowerUps
  simp only [respawn_deals, later_tanks, later_powerUps, later_source, later_respawnDelay,
    later_half, htanks, hpowerUps]
  rfl

omit [Scalar K] in
theorem later_expireBeams : (w.later d).expireBeams (now + d) = (w.expireBeams now).later d := by
  have hfresh : (Beam.isFresh (now + d)) ∘ Beam.later d = Beam.isFresh (K := K) now :=
    funext fun b => b.later_isFresh now
  simp only [expireBeams, later, List.filter_map, hfresh]

theorem later_moveTanks : (w.later d).moveTanks = w.moveTanks.later d := by
  simp only [moveTanks, later, List.map_map, Function.comp_def, Tank.later_step]

theorem later_enforceBounds : (w.later d).enforceBounds = w.enforceBounds.later d := by
  simp only [enforceBounds, later, List.map_map]
  rfl

theorem later_reboundTanks : (w.later d).reboundTanks = w.reboundTanks.later d := by
  simp only [reboundTanks, later, List.map_map, Function.comp_def, Tank.later_rebound]
  rfl

theorem later_strikeTanks :
    (w.later d).strikeTanks (now + d)
      = ((w.strikeTanks now).1.later d, (w.strikeTanks now).2) := by
  have hvisit := Table.visit_map (g := fun p : Projectile K => p) (Toll.later_strike (d := d) now)
    ⟨w.tanks, []⟩ w.projectiles
  rw [List.map_id', List.map_id'] at hvisit
  have hstart : (⟨(w.later d).tanks, []⟩ : Toll K) = Toll.later d ⟨w.tanks, []⟩ := rfl
  unfold strikeTanks
  rw [hstart, later_projectiles, hvisit]
  rfl

theorem later_collectPowerUps :
    (w.later d).collectPowerUps (now + d) = (w.collectPowerUps now).later d := by
  have hvisit := Table.visit_map (Tank.later_collect (d := d) now) w.powerUps w.tanks
  unfold collectPowerUps
  rw [later_powerUps, later_tanks, hvisit]
  rfl

theorem later_burnTanks (scorers : List UInt32) :
    (w.later d).burnTanks (now + d) scorers = (w.burnTanks now scorers).later d := by
  have hfold := Toll.later_foldl_burn (d := d) now w.beams ⟨w.tanks, scorers⟩
  have hstart : (⟨(w.later d).tanks, scorers⟩ : Toll K) = Toll.later d ⟨w.tanks, scorers⟩ := rfl
  have haward := Toll.later_award (d := d) (w.beams.foldl (Toll.burn now) ⟨w.tanks, scorers⟩)
  unfold burnTanks
  rw [hstart, later_beams, hfold, Toll.later, haward]
  rfl

theorem later_collide : (w.later d).collide (now + d) = (w.collide now).later d := by
  have hwalls : ∀ v : World K, (v.later d).reboundTanks.shatterProjectiles
      = v.reboundTanks.shatterProjectiles.later d := by
    intro v
    rw [later_reboundTanks]
    rfl
  unfold collide
  rw [hwalls, later_strikeTanks]
  dsimp only
  rw [later_collectPowerUps, later_burnTanks]

/-- **A tick** told later. -/
theorem later_tick : (w.later d).tick (now + d) = (w.tick now).later d := by
  have hswept : ∀ v : World K, ({ v.later d with ticks := v.ticks + 1 } : World K).sweep
      = ({ v with ticks := v.ticks + 1 } : World K).sweep.later d := fun _ => rfl
  have hmove : ∀ v : World K, (v.later d).moveTanks.moveProjectiles
      = v.moveTanks.moveProjectiles.later d := by
    intro v
    rw [later_moveTanks]
    rfl
  unfold tick
  dsimp only
  rw [← later_collide, ← later_enforceBounds, ← later_expireBeams, ← hmove, ← later_respawn,
    ← hswept]
  rfl

/-! ## 6. Runs and courses -/

/-- **One operation later** has the same outcome and leads to the same world, later. -/
theorem perform_later (op : Operation K) :
    (w.later d).perform (op.later d) = ((w.perform op).1.later d, (w.perform op).2) := by
  cases op with
  | join id name =>
    have hjoin := w.later_join (d := d) id name
    simp only [Operation.later, perform, hjoin]
  | disconnect id =>
    have hdisconnect := w.later_disconnect (d := d) id
    simp only [Operation.later, perform, hdisconnect]
  | command id c now =>
    have hcommand := w.later_command (d := d) now id c
    simp only [Operation.later, perform, hcommand]
  | fire id trigger now =>
    have hfire := w.later_fire (d := d) now id trigger
    simp only [Operation.later, perform, hfire]
  | tick now =>
    have htick := w.later_tick (d := d) now
    simp only [Operation.later, perform, htick]
  | purge =>
    have hpurge := w.later_purge (d := d)
    simp only [Operation.later, perform, hpurge]
  | snapshot =>
    have hpurge := w.later_purge (d := d)
    have hrecords := w.later_records (d := d)
    simp only [Operation.later, perform, snapshot, hpurge, hrecords]

/-- The outcome of an operation does not tell when it was done. -/
theorem later_outcome (m : Moment K) : (m.later d).outcome = m.outcome := by
  unfold Moment.outcome Moment.later
  rw [perform_later]

theorem moments_later (ops : List (Operation K)) :
    (w.later d).moments (ops.map (Operation.later d)) = (w.moments ops).map (Moment.later d) := by
  induction ops generalizing w with
  | nil => rfl
  | cons op ops ih =>
    rw [List.map_cons, moments, perform_later, ih, moments, List.map_append]
    rfl

theorem run_later (ops : List (Operation K)) :
    (w.later d).run (ops.map (Operation.later d)) = (w.run ops).later d := by
  induction ops generalizing w with
  | nil => rfl
  | cons op ops ih =>
    unfold run at ih ⊢
    rw [List.map_cons, List.foldl_cons, List.foldl_cons, perform_later, ih]

omit [Scalar K] in
variable {w} in
theorem Shuffle.later {v : World K} (h : w.Shuffle v) : (w.later d).Shuffle (v.later d) :=
  { h with
    tanks := h.tanks.map _
    powerUps := h.powerUps.map _
    beams := h.beams.map _ }

theorem addPowerUps_later (n : Nat) : (w.later d).addPowerUps n = (w.addPowerUps n).later d := by
  induction n generalizing w with
  | zero => rfl
  | succ n ih =>
    have hput := Table.put_map (g := PowerUp.later d) (fun _ => rfl)
      (PowerUp.fresh w.nextObject (w.source.place w.half).1) w.powerUps
    have hone : (w.later d).addPowerUp = w.addPowerUp.later d := by
      unfold addPowerUp
      simp only [later, ← hput]
      rfl
    rw [addPowerUps, hone, ih, addPowerUps]

variable (settings : Settings K) (source : Source)

/-- A world at its beginning remembers no instant. -/
theorem ofSettings_later : (ofSettings settings source).later d = ofSettings settings source :=
  ((empty settings source).addPowerUps_later settings.maxPowerUps).symm

variable {w settings source} in
/-- **A course told later** is a course. -/
theorem Course.later {past : List (Moment K)} (h : Course (ofSettings settings source) past w) :
    Course (ofSettings settings source) (past.map (Moment.later d)) (w.later d) := by
  induction h with
  | start =>
    rw [ofSettings_later]
    exact Course.start
  | @perform past w op _ ih =>
    have hperform := ih.perform (op.later d)
    rwa [perform_later] at hperform
  | shuffle _ hs ih => exact ih.shuffle hs.later

/-- **Time is relative.**  Whatever is done to a world from its beginning, if it is told some time
later, then

* every operation of the run has the same outcome, so the same ids are fired, the same tanks go and
  snapshots show the same records;
* the worlds on the way are the same, but for the instants that are remembered in them, which are
  all that much later;
* and if in a course the tables are put into some order, they can be put into the same order later.
-/
theorem time_is_relative (d : Nat) :
    (∀ ops, (ofSettings settings source).run (ops.map (Operation.later d))
        = ((ofSettings settings source).run ops).later d ∧
      (ofSettings settings source).moments (ops.map (Operation.later d))
        = ((ofSettings settings source).moments ops).map (Moment.later d) ∧
      ((ofSettings settings source).moments (ops.map (Operation.later d))).map Moment.outcome
        = ((ofSettings settings source).moments ops).map Moment.outcome) ∧
    (∀ past w, Course (ofSettings settings source) past w →
      Course (ofSettings settings source) (past.map (Moment.later d)) (w.later d) ∧
      (past.map (Moment.later d)).map Moment.outcome = past.map Moment.outcome) := by
  have houtcomes : ∀ past : List (Moment K),
      (past.map (Moment.later d)).map Moment.outcome = past.map Moment.outcome := by
    intro past
    rw [List.map_map]
    exact List.map_congr_left fun m _ => later_outcome m
  constructor
  · intro ops
    have hrun := (ofSettings settings source).run_later (d := d) ops
    have hmoments := (ofSettings settings source).moments_later (d := d) ops
    rw [ofSettings_later] at hrun hmoments
    exact ⟨hrun, hmoments, hmoments ▸ houtcomes _⟩
  · intro past w h
    exact ⟨h.later, houtcomes past⟩

/-- The shots of a duel that is fought later are fired as much later. -/
theorem time_is_relative_duel :
    ∃ past, Course (ofSettings duelSettings (Source.ofSeed 8)) past duel ∧
      Course (ofSettings duelSettings (Source.ofSeed 8)) (past.map (Moment.later 5))
        (duel.later 5) ∧
      (past.map (Moment.later 5)).map Moment.outcome = past.map Moment.outcome ∧
      (duel.tank? 1).map Tank.lastFire = some (some 3) ∧
      ((duel.later 5).tank? 1).map Tank.lastFire = some (some 8) := by
  obtain ⟨past, hcourse, hfired⟩ : ∃ past,
      Course (ofSettings duelSettings (Source.ofSeed 8)) past duel ∧
        (duel.tank? 1).map Tank.lastFire = some (some 3) :=
    ⟨_, course_run _ _, by decide +kernel⟩
  obtain ⟨_, hcourses⟩ := time_is_relative duelSettings (Source.ofSeed 8) 5
  obtain ⟨hlater, houtcomes⟩ := hcourses past duel hcourse
  have hshifted : ((duel.later 5).tank? 1).map Tank.lastFire
      = ((duel.tank? 1).map Tank.lastFire).map (laterInstant 5) := by
    rw [later_tank?, Option.map_map, Option.map_map]
    rfl
  exact ⟨past, hcourse, hlater, houtcomes, hfired, by rw [hshifted, hfired]; rfl⟩

end World

end TankArena
