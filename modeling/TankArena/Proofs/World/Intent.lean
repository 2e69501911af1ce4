import TankArena.Proofs.World.Course

/-!
# The latest command counts

A tank keeps what its player asked for in three fields: where to drive, where to aim, and where it
was headed when it last made a step.  Commands write them, coming back clears the first, and ticks
write the last one.  This file reads all three off the course.

* `driveAsked` is the driving of the last command since the tank was added or came back.
* `aimAsked` is the aim of the last command with a direction since it was added.
* `headed` is the direction of the last step that the tank was told to make while it was live.

`Follows` says that a tank has these three, and every tank that is connected has them
(`Course.follows`).  Driving is claimed of live tanks only: between its death and its return a tank
keeps an order that it will not carry out.
-/

namespace TankArena

variable {K : Type} [Scalar K]

/-! ## 1. What was asked -/

namespace Moment

/-- Whether the tank with an id comes back in the operation. -/
def revives (id : UInt32) (m : Moment K) : Bool :=
  match m.op with
  | .tick now => (m.world.tank? id).any (Tank.isDue m.world.respawnDelay now)
  | _ => false

/-- The direction in which the tank with an id makes a step in the operation: it is a tick, and when
the tanks move the tank is live and told to go somewhere. -/
def heading? (id : UInt32) (m : Moment K) : Option (Vec K) :=
  match m.op with
  | .tick now =>
    ((m.world.returned now).tank? id).bind fun b =>
      if b.isLive then b.drive.heading? else none
  | _ => none

end Moment

/-- The part of a course since the tank with an id was added or last came back, the latest first. -/
def sinceBack (id : UInt32) (past : List (Moment K)) : List (Moment K) :=
  past.takeWhile fun m => !m.adds id && !m.revives id

/-- The driving of the last command since the tank was added or last came back. -/
def driveAsked (id : UInt32) (past : List (Moment K)) : Drive :=
  ((sinceBack id past).findSome? (Moment.commandTo? id)).elim .hold Command.drive

/-- The direction of the aim that a command gives to the tank with an id: the aim divided by its
length, if that is a finite number other than zero. -/
def Moment.aimTo? (id : UInt32) (m : Moment K) : Option (Vec K) :=
  (m.commandTo? id).bind fun c =>
    let length := Scalar.sqrt (c.aim.x * c.aim.x + c.aim.y * c.aim.y)
    if Scalar.same length 0.0 || !Scalar.isFinite length then none
    else some ⟨c.aim.x / length, c.aim.y / length⟩

/-- The aim of the last command that had a direction since the tank was added; to the right, if
there was none. -/
def aimAsked (id : UInt32) (past : List (Moment K)) : Vec K :=
  ((sinceJoin id past).findSome? (Moment.aimTo? id)).getD ⟨1.0, 0.0⟩

/-- The direction of the last step that the tank was told to make while it was live, since it was
added; up, if there was none. -/
def headed (id : UInt32) (past : List (Moment K)) : Vec K :=
  ((sinceJoin id past).findSome? (Moment.heading? id)).getD ⟨0.0, -1.0⟩

section Cons

variable {id : UInt32} {m : Moment K}

theorem driveAsked_of_back (h : (m.adds id || m.revives id) = true) (past : List (Moment K)) :
    driveAsked id (m :: past) = .hold := by
  unfold driveAsked sinceBack
  rw [List.takeWhile_cons_of_neg (by simp [← Bool.not_or, h])]
  rfl

theorem driveAsked_cons (hadds : m.adds id = false) (hback : m.revives id = false)
    (past : List (Moment K)) :
    driveAsked id (m :: past) = (m.commandTo? id).elim (driveAsked id past) Command.drive := by
  unfold driveAsked sinceBack
  rw [List.takeWhile_cons_of_pos (by simp [hadds, hback]), List.findSome?_cons]
  cases m.commandTo? id <;> rfl

theorem aimAsked_of_adds (h : m.adds id = true) (past : List (Moment K)) :
    aimAsked id (m :: past) = Vec.right := by
  rw [aimAsked, sinceJoin_of_adds h]
  rfl

theorem aimAsked_cons (h : m.adds id = false) (past : List (Moment K)) :
    aimAsked id (m :: past) = (m.aimTo? id).getD (aimAsked id past) := by
  unfold aimAsked
  rw [sinceJoin_of_not_adds h, List.findSome?_cons]
  cases m.aimTo? id <;> rfl

theorem headed_of_adds (h : m.adds id = true) (past : List (Moment K)) :
    headed id (m :: past) = Vec.up := by
  rw [headed, sinceJoin_of_adds h]
  rfl

theorem headed_cons (h : m.adds id = false) (past : List (Moment K)) :
    headed id (m :: past) = (m.heading? id).getD (headed id past) := by
  unfold headed
  rw [sinceJoin_of_not_adds h, List.findSome?_cons]
  cases m.heading? id <;> rfl

end Cons

/-! ## 2. Tanks that follow -/

/-- A tank that has what was asked of it. -/
structure Tank.Follows (id : UInt32) (past : List (Moment K)) (t : Tank K) : Prop where
  drive_eq : t.isLive = true → t.drive = driveAsked id past
  aim_eq : t.aim = aimAsked id past
  orientation_eq : t.orientation = headed id past

namespace Tank

variable {id : UInt32} {past : List (Moment K)} {m : Moment K} {t u : Tank K}

theorem follows_fresh (h : m.adds id = true) (name : String) (location : Vec K) :
    (fresh id name location).Follows id (m :: past) where
  drive_eq := fun _ => (driveAsked_of_back (by simp [h]) past).symm
  aim_eq := (aimAsked_of_adds h past).symm
  orientation_eq := (headed_of_adds h past).symm

/-- An operation that gives no command to the tank and is no tick asks nothing of it. -/
theorem Follows.idle (h : t.Follows id past) (hadds : m.adds id = false)
    (hcommand : m.commandTo? id = none) (htick : m.tickAt? = none) (hlive : u.isLive = t.isLive)
    (hdrive : u.drive = t.drive) (haim : u.aim = t.aim)
    (horientation : u.orientation = t.orientation) : u.Follows id (m :: past) := by
  have hquiet : m.revives id = false ∧ m.heading? id = none := by
    unfold Moment.tickAt? at htick
    unfold Moment.revives Moment.heading?
    cases hop : m.op with
    | tick now =>
      rw [hop] at htick
      cases htick
    | _ => exact ⟨rfl, rfl⟩
  have haimTo : m.aimTo? id = none := by rw [Moment.aimTo?, hcommand, Option.bind_none]
  constructor
  · intro hu
    rw [driveAsked_cons hadds hquiet.1, hcommand, hdrive]
    exact h.drive_eq (hlive ▸ hu)
  · rw [aimAsked_cons hadds, haimTo, haim]
    exact h.aim_eq
  · rw [headed_cons hadds, hquiet.2, horientation]
    exact h.orientation_eq

/-- A trigger asks nothing of the tank beyond its shot. -/
theorem Follows.pull (h : t.Follows id past) (cooldown : Nat) (trigger : Trigger) (now : Time) :
    (t.pull cooldown trigger now).Follows id past := by
  obtain ⟨lastFire, ammo, hpull⟩ := pull_eq cooldown trigger now t
  rw [hpull]
  exact ⟨h.drive_eq, h.aim_eq, h.orientation_eq⟩

/-- **A command** to a tank with a player replaces what was asked before. -/
theorem Follows.heed (h : t.Follows id past) (hplayer : t.disconnected = false) (w : World K)
    (c : Command K) (now : Time) : (t.heed c).Follows id (⟨w, .command id c now⟩ :: past) := by
  have hto : Moment.commandTo? id ⟨w, .command id c now⟩ = some c := if_pos rfl
  have hheed : t.heed c = t.obey c := if_neg (by simp [hplayer])
  rw [hheed]
  constructor
  · intro hlive
    have hdied : t.died = false := by
      have halive : (!t.died && !t.disconnected) = true := hlive
      simpa [hplayer] using halive
    rw [driveAsked_cons rfl rfl, hto]
    exact if_neg (by simp [hdied])
  · rw [aimAsked_cons rfl, Moment.aimTo?, hto, ← h.aim_eq]
    rfl
  · rw [headed_cons rfl]
    exact h.orientation_eq

/-- A tank that comes back forgets its driving. -/
theorem Follows.returned (h : t.Follows id past) {w : World K} {now : Time} {b : Tank K}
    (ht : w.tank? id = some t) (hreturns : w.Returns now t b) (hlive : b.isLive = true) :
    b.drive = driveAsked id (⟨w, .tick now⟩ :: past) := by
  unfold World.Returns at hreturns
  by_cases hdue : t.isDue w.respawnDelay now = true
  · rw [if_pos hdue] at hreturns
    obtain ⟨source, rfl⟩ := hreturns
    rw [driveAsked_of_back (by simp [Moment.revives, ht, hdue])]
    rfl
  · rw [if_neg hdue] at hreturns
    subst hreturns
    rw [driveAsked_cons rfl (by simp [Moment.revives, ht, hdue])]
    exact h.drive_eq hlive

/-- **A tick** makes a tank that comes back forget its driving, and a live one remember its step. -/
theorem Follows.tick (h : t.Follows id past) {w : World K} {now : Time}
    (ht : w.tank? id = some t) (hpasses : w.Passes now t u) :
    u.Follows id (⟨w, .tick now⟩ :: past) := by
  obtain ⟨b, hb, hreturns, hsettles⟩ := hpasses
  have hid : t.id = id := Table.ident_of_find? ht
  obtain ⟨location, orientation, preMove, hstep⟩ := b.step_eq
  have hdrive : u.drive = b.drive := by
    have hsame : u.drive = b.step.drive := congrArg Stance.drive hsettles.stance_eq
    rw [hsame, hstep]
  have haim : u.aim = b.aim := by
    have hsame : u.aim = b.step.aim := congrArg Stance.aim hsettles.stance_eq
    rw [hsame, hstep]
  have hback : b.aim = t.aim ∧ b.orientation = t.orientation := by
    rcases hreturns.same_or_back with rfl | ⟨spot, rfl⟩
    · exact ⟨rfl, rfl⟩
    · exact ⟨rfl, rfl⟩
  constructor
  · intro hu
    have hlive : b.isLive = true := b.isLive_step ▸ hsettles.live hu
    rw [hdrive]
    exact h.returned ht hreturns hlive
  · rw [aimAsked_cons rfl, haim, hback.1]
    exact h.aim_eq
  · have hturned : u.orientation = b.step.orientation :=
      congrArg Stance.orientation hsettles.stance_eq
    have hheading : Moment.heading? id ⟨w, .tick now⟩
        = if b.isLive then b.drive.heading? else none := by
      rw [← hid]
      simp [Moment.heading?, hb]
    rw [headed_cons rfl, hheading, hturned, ← h.orientation_eq, ← hback.2]
    by_cases hlive : b.isLive = true
    · rw [if_pos hlive]
      exact (step_of_isLive hlive).2.1
    · rw [if_neg hlive, step_of_not_isLive (Bool.eq_false_iff.mpr hlive)]
      rfl

end Tank

namespace World

variable {id : UInt32} {past : List (Moment K)}

/-- Nobody who has gone comes back. -/
theorem Turns.connected {w : World K} {op : Operation K} {t u : Tank K} (h : w.Turns op t u)
    (hu : u.disconnected = false) : t.disconnected = false := by
  have hpull : ∀ (cooldown : Nat) (trigger : Trigger) (now : Time) (v : Tank K),
      (v.pull cooldown trigger now).disconnected = v.disconnected := by
    intro cooldown trigger now v
    obtain ⟨_, _, hpull⟩ := Tank.pull_eq cooldown trigger now v
    rw [hpull]
  cases op with
  | join key name =>
    obtain rfl : u = t := h
    exact hu
  | disconnect key =>
    simp only [Turns] at h
    split at h
    · rw [h] at hu
      cases hu
    · rwa [h] at hu
  | command key c now =>
    simp only [Turns] at h
    split at h
    · rwa [h, hpull, Tank.heed_disconnected] at hu
    · rwa [h] at hu
  | fire key trigger now =>
    simp only [Turns] at h
    split at h
    · rwa [h, hpull] at hu
    · rwa [h] at hu
  | tick now =>
    obtain ⟨b, _, hreturns, hsettles⟩ := h
    obtain ⟨_, _, _, hstep⟩ := b.step_eq
    have hsame : u.disconnected = b.step.disconnected :=
      congrArg Tank.Stance.disconnected hsettles.stance_eq
    rw [hsame, hstep] at hu
    rcases hreturns.same_or_back with rfl | ⟨spot, rfl⟩
    · exact hu
    · exact hu
  | purge | snapshot =>
    obtain rfl : u = { t with joined := false } := h
    exact hu

/-- **A connected tank follows.** -/
theorem Course.follows {start w : World K} (h : Course start past w) (hs : start.Sound)
    (hnobody : start.tanks = []) {t : Tank K} (ht : w.tank? id = some t)
    (hplayer : t.disconnected = false) : t.Follows id past := by
  refine h.tank_induction (P := fun past t => t.disconnected = false → t.Follows id past) hs hnobody
    (fun m past name location hadds _ => Tank.follows_fresh hadds name location)
    (fun m past t u _ hadds ht hturns ih hu => ?_) ht hplayer
  have hconnected : t.disconnected = false := hturns.connected hu
  have hfollows : t.Follows id past := ih hconnected
  have hid : t.id = id := Table.ident_of_find? ht
  obtain ⟨w, op⟩ := m
  cases op with
  | join key name =>
    obtain rfl : u = t := hturns
    exact hfollows.idle hadds rfl rfl rfl rfl rfl rfl
  | disconnect key =>
    simp only [Turns] at hturns
    split at hturns
    · subst hturns
      cases hu
    · subst hturns
      exact hfollows.idle hadds rfl rfl rfl rfl rfl rfl
  | command key c now =>
    simp only [Turns] at hturns
    split at hturns
    · rename_i hkey
      subst hturns
      rw [← hkey, hid]
      exact (hfollows.heed hconnected w c now).pull w.fireCooldown c.trigger now
    · rename_i hkey
      subst hturns
      have hother : Moment.commandTo? id ⟨w, .command key c now⟩ = none :=
        if_neg fun hsame => hkey (hid.trans hsame.symm)
      exact hfollows.idle hadds hother rfl rfl rfl rfl rfl
  | fire key trigger now =>
    have hnext : t.Follows id (⟨w, .fire key trigger now⟩ :: past) :=
      hfollows.idle hadds rfl rfl rfl rfl rfl rfl
    simp only [Turns] at hturns
    split at hturns
    · subst hturns
      exact hnext.pull w.fireCooldown trigger now
    · subst hturns
      exact hnext
  | tick now => exact hfollows.tick ht hturns
  | purge | snapshot =>
    obtain rfl : u = { t with joined := false } := hturns
    exact hfollows.idle hadds rfl rfl rfl rfl rfl rfl

/-! ## 3. The whole course -/

/-- **In a tick** a tank in play tries to go where the last command says, and stays if it has just
come back. -/
theorem exists_asked_step {w : World K} {t : Tank K} (ht : w.tank? id = some t)
    (hplayer : t.disconnected = false) (hfollows : t.Follows id past) (now : Time) :
    ∃ b, (w.returned now).tank? id = some b ∧
      (b.isLive = true ↔ t.isLive = true ∨ t.isDue w.respawnDelay now = true) ∧
      (if t.isDue w.respawnDelay now then
        driveAsked id (⟨w, .tick now⟩ :: past) = .hold ∧
          ∃ spot : Source, b.location = (spot.place w.half).1
      else driveAsked id (⟨w, .tick now⟩ :: past) = driveAsked id past ∧ b.location = t.location) ∧
      (b.isLive = true → ∃ d u, (w.driven now).tank? id = some d ∧
        d.location = (driveAsked id (⟨w, .tick now⟩ :: past)).ahead b.location ∧
        (w.tick now).tank? id = some u ∧
        u.location = if w.boxes.any fun box => box.overlapsTank (w.around d.location)
          then b.location else w.around d.location) := by
  obtain ⟨b, hb, hreturns⟩ := exists_returned now ht
  have htried : b.isLive = true → _ := fun hlive =>
    hfollows.returned ht hreturns hlive ▸ exists_tried hb hlive
  by_cases hdue : t.isDue w.respawnDelay now = true
  · obtain ⟨spot, rfl⟩ : ∃ spot : Source, b = t.revive (spot.place w.half).1 := by
      rwa [Returns, if_pos hdue] at hreturns
    refine ⟨_, hb, ?_, ?_, htried⟩
    · simp [hdue, Tank.isLive, Tank.revive, hplayer]
    · rw [if_pos hdue]
      exact ⟨driveAsked_of_back (by simp [Moment.revives, ht, hdue]) past, spot, rfl⟩
  · obtain rfl : b = t := by rwa [Returns, if_neg hdue] at hreturns
    refine ⟨_, hb, ?_, ?_, htried⟩
    · simp [hdue]
    · rw [if_neg hdue]
      exact ⟨driveAsked_cons rfl (by simp [Moment.revives, ht, hdue]) past, rfl⟩

/-- **The latest command counts.**  In every world that a course leads to, for every tank that is
connected,

* its driving, while it is live, is that of the last command since it was added or came back;
* its aim is that of the last command with a direction since it was added, dead or alive;
* it points where its last step since it was added was told to go;
* in a tick a tank that is live once the dead are back tries to go from where it was, or from the
  place that it came back to, where the last command says, and a tank that has just come back stays
  there; what it is left with is that place, around the edges, or its old one if a wall is there;
* a command to another tank leaves it as it is. -/
theorem latest_command_counts {settings : Settings K} {source : Source} {w : World K}
    (h : Course (ofSettings settings source) past w) {t : Tank K} (ht : w.tank? id = some t)
    (hplayer : t.disconnected = false) :
    (t.isLive = true → t.drive = driveAsked id past) ∧
    t.aim = aimAsked id past ∧
    t.orientation = headed id past ∧
    (∀ now, ∃ b, (w.returned now).tank? id = some b ∧
      (b.isLive = true ↔ t.isLive = true ∨ t.isDue w.respawnDelay now = true) ∧
      (if t.isDue w.respawnDelay now then
        driveAsked id (⟨w, .tick now⟩ :: past) = .hold ∧
          ∃ spot : Source, b.location = (spot.place w.half).1
      else driveAsked id (⟨w, .tick now⟩ :: past) = driveAsked id past ∧ b.location = t.location) ∧
      (b.isLive = true → ∃ d u, (w.driven now).tank? id = some d ∧
        d.location = (driveAsked id (⟨w, .tick now⟩ :: past)).ahead b.location ∧
        (w.tick now).tank? id = some u ∧
        u.location = if w.boxes.any fun box => box.overlapsTank (w.around d.location)
          then b.location else w.around d.location)) ∧
    (∀ key c now, key ≠ id → (w.command key c now).1.tank? id = some t) := by
  have hsound : w.Sound := h.sound (sound_ofSettings settings source)
  have hfollows : t.Follows id past :=
    h.follows (sound_ofSettings settings source) (ofSettings_tanks settings source) ht hplayer
  refine ⟨hfollows.drive_eq, hfollows.aim_eq, hfollows.orientation_eq,
    exists_asked_step ht hplayer hfollows, fun key c now hother => ?_⟩
  rw [tank?_command hsound.keyed, ht, Option.map_some, if_neg (Ne.symm hother)]

/-- The player of a tank that is hit tells it to drive left before and up after its death. -/
def comeback : List (Operation Float) :=
  [.command 2 ⟨.left, .idle, Vec.up⟩ 4, .tick 4, .command 2 ⟨.up, .idle, Vec.left⟩ 5,
    .tick 6000000]

/-- Back in the game the tank stands still and aims where it was told to while it was dead. -/
theorem latest_command_counts_comeback :
    ∃ past t, Course (ofSettings duelSettings (Source.ofSeed 8)) past (duel.run comeback) ∧
      (duel.run comeback).tank? 2 = some t ∧ t.disconnected = false ∧ t.isLive = true ∧
      t.drive = .hold ∧ t.aim = aimAsked 2 past := by
  obtain ⟨past, hcourse, hasked, hstate⟩ : ∃ past,
      Course (ofSettings duelSettings (Source.ofSeed 8)) past (duel.run comeback) ∧
        driveAsked 2 past = .hold ∧
        ((duel.run comeback).tank? 2).map (fun t => (t.disconnected, t.isLive))
          = some (false, true) :=
    ⟨_, (course_run _ _).run comeback, by decide +kernel⟩
  obtain ⟨t, ht, hflags⟩ := Option.map_eq_some_iff.mp hstate
  have hplayer : t.disconnected = false := congrArg Prod.fst hflags
  have hlive : t.isLive = true := congrArg Prod.snd hflags
  have hall := latest_command_counts hcourse ht hplayer
  exact ⟨past, t, hcourse, ht, hplayer, hlive, (hall.1 hlive).trans hasked, hall.2.1⟩

end World

end TankArena
