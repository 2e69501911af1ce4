import TankArena.Proofs.World.Order
import TankArena.Proofs.World.Passage
import TankArena.Proofs.World.Shots

/-!
# Courses

Some of what is said of a world is about the way that led to it: who fired when, which command was
the last, how often something was picked up.  A `Course` keeps this way.  It is a list of moments,
each an operation with the world that it was done to, the latest first.  As in `Reachable`, the
tables may be put into another order between operations.

* Every run is a course (`course_run`), the worlds of courses are the reachable ones
  (`Course.reachable`, `Reachable.exists_course`), and the two delays, the walls and the edges stay
  (`Course.fixed_eq`).
* What is told of one tank is told since it was added: by `sinceJoin`.  `tank?_perform` says all
  that an operation can do to the tank under an id, and `Course.tank_induction` makes of it what
  holds of every tank of a course.
-/

namespace TankArena

open Table (Keyed)

variable {K : Type}

/-! ## 1. Moments -/

/-- An operation and the world that it is done to. -/
structure Moment (K : Type) where
  world : World K
  op : Operation K

namespace Moment

variable [Scalar K]

/-- What the operation answers. -/
def outcome (m : Moment K) : Outcome K := (m.world.perform m.op).2

/-- Whether the operation adds a tank with an id. -/
def adds (id : UInt32) (m : Moment K) : Bool :=
  match m.op with
  | .join key name => key == id && (m.world.join key name).2
  | _ => false

/-- The command that the operation gives to the tank with an id. -/
def commandTo? (id : UInt32) (m : Moment K) : Option (Command K) :=
  match m.op with
  | .command key c _ => if key = id then some c else none
  | _ => none

/-- When the tank with an id fires, if the operation pulls a trigger of it and it does. -/
def firedAt? (id : UInt32) (trigger : Trigger) (m : Moment K) : Option Time :=
  match m.op.pull? with
  | some (key, pulled, now) =>
    if key = id ∧ pulled = trigger ∧ m.outcome.shot?.isSome then some now else none
  | none => none

/-- The instant of the operation, if it is a tick. -/
def tickAt? (m : Moment K) : Option Time :=
  match m.op with
  | .tick now => some now
  | _ => none

end Moment

/-- The part of a course since the tank with an id was added, the latest first. -/
def sinceJoin [Scalar K] (id : UInt32) (past : List (Moment K)) : List (Moment K) :=
  past.takeWhile fun m => !m.adds id

section SinceJoin

variable [Scalar K] {id : UInt32} {m : Moment K}

theorem sinceJoin_of_adds (h : m.adds id = true) (past : List (Moment K)) :
    sinceJoin id (m :: past) = [] :=
  List.takeWhile_cons_of_neg (by simp [h])

theorem sinceJoin_of_not_adds (h : m.adds id = false) (past : List (Moment K)) :
    sinceJoin id (m :: past) = m :: sinceJoin id past :=
  List.takeWhile_cons_of_pos (by simp [h])

end SinceJoin

/-- Instants keep a delay apart if the latest is that long after the one before. -/
theorem apart_cons {delay : Nat} {now : Time} {times : List Time}
    (h : times.Pairwise fun later earlier => earlier + delay < later)
    (hlast : ∀ last, times.head? = some last → last + delay < now) :
    (now :: times).Pairwise fun later earlier => earlier + delay < later := by
  refine List.pairwise_cons.mpr ⟨fun earlier hearlier => ?_, h⟩
  cases h with
  | nil => cases hearlier
  | @cons last rest hbefore _ =>
    have hlong : last + delay < now := hlast last rfl
    rcases List.mem_cons.mp hearlier with rfl | hrest
    · exact hlong
    · have hlater : last < now := Nat.lt_of_le_of_lt (Nat.le_add_right last delay) hlong
      exact Nat.lt_trans (hbefore earlier hrest) hlater

namespace World

variable [Scalar K]

/-! ## 2. Courses -/

/-- What was done since a beginning, the latest first, and the world that it led to, whatever the
order of the tables at any moment. -/
inductive Course (start : World K) : List (Moment K) → World K → Prop where
  | start : Course start [] start
  | perform {past : List (Moment K)} {w : World K} (op : Operation K) :
      Course start past w → Course start (⟨w, op⟩ :: past) (w.perform op).1
  | shuffle {past : List (Moment K)} {w w' : World K} :
      Course start past w → w.Shuffle w' → Course start past w'

/-- The moments of a run, the latest first. -/
def moments (w : World K) : List (Operation K) → List (Moment K)
  | [] => []
  | op :: ops => moments (w.perform op).1 ops ++ [⟨w, op⟩]

variable {start w : World K} {past : List (Moment K)}

theorem Course.run (h : Course start past w) (ops : List (Operation K)) :
    Course start (w.moments ops ++ past) (w.run ops) := by
  induction ops generalizing w past with
  | nil => exact h
  | cons op ops ih =>
    rw [moments, List.append_assoc]
    exact ih (h.perform op)

theorem Course.tick (h : Course start past w) (now : Time) :
    Course start (⟨w, .tick now⟩ :: past) (w.tick now) := h.perform (.tick now)

/-- **A run is a course.** -/
theorem course_run (w : World K) (ops : List (Operation K)) :
    Course w (w.moments ops) (w.run ops) := by
  have hrun := (Course.start : Course w [] w).run ops
  rwa [List.append_nil] at hrun

section Reachable

variable {settings : Settings K} {source : Source}

theorem Course.reachable (h : Course (ofSettings settings source) past w) :
    Reachable settings source w := by
  induction h with
  | start => exact Reachable.start
  | perform op _ ih => exact ih.perform op
  | shuffle _ hs ih => exact ih.shuffle hs

theorem Reachable.exists_course (h : Reachable settings source w) :
    ∃ past, Course (ofSettings settings source) past w := by
  induction h with
  | start => exact ⟨[], Course.start⟩
  | perform op _ ih =>
    obtain ⟨past, hpast⟩ := ih
    exact ⟨_, hpast.perform op⟩
  | shuffle _ hs ih =>
    obtain ⟨past, hpast⟩ := ih
    exact ⟨past, hpast.shuffle hs⟩

end Reachable

theorem Course.sound (h : Course start past w) (hs : start.Sound) : w.Sound := by
  induction h with
  | start => exact hs
  | perform op _ ih => exact ih.perform op
  | shuffle _ hshuffle ih => exact ih.shuffle hshuffle

theorem Course.indexed (h : Course start past w) (hi : start.Indexed) : w.Indexed := by
  induction h with
  | start => exact hi
  | perform op _ ih => exact ih.perform op
  | shuffle _ hshuffle ih => exact ih.shuffle hshuffle

/-! ## 3. What stays -/

/-- No operation touches the two delays, the walls or the edges of the world. -/
theorem perform_fixed (w : World K) (op : Operation K) :
    (w.perform op).1.fireCooldown = w.fireCooldown ∧
      (w.perform op).1.respawnDelay = w.respawnDelay ∧ (w.perform op).1.walls = w.walls ∧
      (w.perform op).1.size = w.size := by
  rcases perform_cases w op with ⟨now, rfl⟩ | ⟨_, _, hworld, _⟩ | ⟨_, _, hworld, _⟩
  · exact ⟨rfl, rfl, rfl, rfl⟩
  · rw [hworld]
    exact ⟨rfl, rfl, rfl, rfl⟩
  · rw [hworld]
    exact ⟨rfl, rfl, rfl, rfl⟩

theorem Course.fixed_eq (h : Course start past w) :
    w.fireCooldown = start.fireCooldown ∧ w.respawnDelay = start.respawnDelay ∧
      w.walls = start.walls ∧ w.size = start.size := by
  induction h with
  | start => exact ⟨rfl, rfl, rfl, rfl⟩
  | @perform past w op _ ih =>
    obtain ⟨hcooldown, hdelay, hwalls, hsize⟩ := perform_fixed w op
    rw [hcooldown, hdelay, hwalls, hsize]
    exact ih
  | shuffle _ hs ih =>
    rw [hs.fireCooldown_eq, hs.respawnDelay_eq, hs.walls_eq, hs.size_eq]
    exact ih

theorem Course.delays_eq (h : Course start past w) :
    w.fireCooldown = start.fireCooldown ∧ w.respawnDelay = start.respawnDelay :=
  ⟨h.fixed_eq.1, h.fixed_eq.2.1⟩

theorem ofSettings_fixed (settings : Settings K) (source : Source) :
    (ofSettings settings source).fireCooldown = Time.ofMillis settings.fireCooldownMs ∧
      (ofSettings settings source).respawnDelay = Time.ofMillis settings.respawnRateMs ∧
      (ofSettings settings source).walls = settings.wallRecords ∧
      (ofSettings settings source).size = settings.universeSize := by
  have hadd : ∀ (n : Nat) (v : World K), (v.addPowerUps n).fireCooldown = v.fireCooldown ∧
      (v.addPowerUps n).respawnDelay = v.respawnDelay ∧ (v.addPowerUps n).walls = v.walls ∧
      (v.addPowerUps n).size = v.size := by
    intro n
    induction n with
    | zero => exact fun v => ⟨rfl, rfl, rfl, rfl⟩
    | succ n ih => exact fun v => ih v.addPowerUp
  exact hadd settings.maxPowerUps (empty settings source)

theorem ofSettings_delays (settings : Settings K) (source : Source) :
    (ofSettings settings source).fireCooldown = Time.ofMillis settings.fireCooldownMs ∧
      (ofSettings settings source).respawnDelay = Time.ofMillis settings.respawnRateMs :=
  ⟨(ofSettings_fixed settings source).1, (ofSettings_fixed settings source).2.1⟩

/-- Whatever happens, a world keeps what its settings say. -/
theorem Reachable.fixed_eq {settings : Settings K} {source : Source}
    (h : Reachable settings source w) :
    w.fireCooldown = Time.ofMillis settings.fireCooldownMs ∧
      w.respawnDelay = Time.ofMillis settings.respawnRateMs ∧
      w.walls = settings.wallRecords ∧ w.size = settings.universeSize := by
  obtain ⟨past, hcourse⟩ := h.exists_course
  obtain ⟨hcooldown, hdelay, hwalls, hsize⟩ := hcourse.fixed_eq
  rw [hcooldown, hdelay, hwalls, hsize]
  exact ofSettings_fixed settings source

/-! ## 4. One tank -/

/-- What an operation makes of a tank that stays. -/
def Turns (w : World K) (op : Operation K) (t u : Tank K) : Prop :=
  match op with
  | .join _ _ => u = t
  | .disconnect key => u = if t.id = key then t.disconnect else t
  | .command key c now =>
    u = if t.id = key then (t.heed c).pull w.fireCooldown c.trigger now else t
  | .fire key trigger now => u = if t.id = key then t.pull w.fireCooldown trigger now else t
  | .tick now => w.Passes now t u
  | .purge => u = { t with joined := false }
  | .snapshot => u = { t with joined := false }

/-- **What an operation can do to the tank under an id.**  The operation adds it, or it was there
before. -/
theorem tank?_perform (hk : Keyed w.tanks) {op : Operation K} {id : UInt32} {u : Tank K}
    (hu : (w.perform op).1.tank? id = some u) :
    (Moment.adds id ⟨w, op⟩ = true ∧ ∃ name location, u = Tank.fresh id name location) ∨
      (Moment.adds id ⟨w, op⟩ = false ∧ ∃ t, w.tank? id = some t ∧ w.Turns op t u) := by
  have hchanged : ∀ {f : Tank K → Tank K}, (w.perform op).1.tank? id = (w.tank? id).map f →
      ∃ t, w.tank? id = some t ∧ u = f t := by
    intro f hf
    rw [hf] at hu
    obtain ⟨t, ht, htu⟩ := Option.map_eq_some_iff.mp hu
    exact ⟨t, ht, htu.symm⟩
  have hpurge : w.purge.1.tank? id = some u →
      ∃ t, w.tank? id = some t ∧ u = { t with joined := false } := by
    intro hpurged
    simp only [tank?, purge] at hpurged
    rw [Table.find?_map (f := fun t : Tank K => { t with joined := false }) (fun _ => rfl),
      Table.find?_filter hk] at hpurged
    obtain ⟨t, ht, rfl⟩ := Option.map_eq_some_iff.mp hpurged
    exact ⟨t, (Option.filter_eq_some_iff.mp ht).1, rfl⟩
  cases op with
  | join key name =>
    have hperform : (w.perform (.join key name)).1 = (w.join key name).1 := rfl
    rw [hperform] at hu
    rcases join_cases key name w with ⟨_, hsame⟩ | ⟨_, hnew⟩
    · refine Or.inr ⟨by simp [Moment.adds, hsame], u, ?_, rfl⟩
      rwa [hsame] at hu
    · rw [hnew] at hu
      simp only [tank?, Table.find?_put] at hu
      by_cases hid : id = key
      · rw [if_pos (show id = Identified.ident (Tank.fresh key _ _) from hid)] at hu
        obtain rfl := Option.some.inj hu
        refine Or.inl ⟨by simp [Moment.adds, hnew, hid], _, _, by rw [hid]⟩
      · rw [if_neg (show ¬ id = Identified.ident (Tank.fresh key _ _) from hid)] at hu
        exact Or.inr ⟨by simp [Moment.adds, Ne.symm hid], u, hu, rfl⟩
  | disconnect key =>
    refine Or.inr ⟨rfl, ?_⟩
    obtain ⟨t, ht, rfl⟩ := hchanged (Table.find?_modify (f := Tank.disconnect) (fun _ => rfl) id key
      w.tanks)
    have hid : t.id = id := Table.ident_of_find? ht
    exact ⟨t, ht, by rw [Turns, hid]⟩
  | command key c now =>
    refine Or.inr ⟨rfl, ?_⟩
    obtain ⟨t, ht, rfl⟩ := hchanged (tank?_command hk id key c now)
    have hid : t.id = id := Table.ident_of_find? ht
    exact ⟨t, ht, by rw [Turns, hid]⟩
  | fire key trigger now =>
    refine Or.inr ⟨rfl, ?_⟩
    obtain ⟨t, ht, rfl⟩ := hchanged (tank?_fire hk id key trigger now)
    have hid : t.id = id := Table.ident_of_find? ht
    exact ⟨t, ht, by rw [Turns, hid]⟩
  | tick now =>
    exact Or.inr ⟨rfl, tank?_tick hu⟩
  | purge | snapshot => exact Or.inr ⟨rfl, hpurge hu⟩

/-- **What is told of one tank.**  What holds of a tank when it is added, and is kept by what an
operation makes of it, holds of every tank along a course. -/
theorem Course.tank_induction {P : List (Moment K) → Tank K → Prop} (h : Course start past w)
    (hs : start.Sound) (hnobody : start.tanks = []) {id : UInt32}
    (hfresh : ∀ m past name location, m.adds id = true →
      P (m :: past) (Tank.fresh id name location))
    (hturn : ∀ m past t u, Course start past m.world → m.adds id = false →
      m.world.tank? id = some t → m.world.Turns m.op t u → P past t → P (m :: past) u)
    {t : Tank K} (ht : w.tank? id = some t) : P past t := by
  induction h generalizing t with
  | start =>
    unfold tank? at ht
    rw [hnobody] at ht
    cases ht
  | @perform past w op hcourse ih =>
    rcases tank?_perform (hcourse.sound hs).keyed ht with
      ⟨hadds, name, location, rfl⟩ | ⟨hadds, b, hb, hturns⟩
    · exact hfresh _ past name location hadds
    · exact hturn _ past b t hcourse hadds hb hturns (ih hb)
  | shuffle hcourse hshuffle ih =>
    refine ih ?_
    unfold tank? at ht ⊢
    rwa [(hcourse.sound hs).keyed.find?_perm hshuffle.tanks] at ht

end World

end TankArena
