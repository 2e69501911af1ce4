import TankArena.Proofs.World.Barrier
import TankArena.Proofs.World.Intent

/-!
# The lifetime of shots

A projectile never stands still and never turns, and the world has edges.  So it is soon gone,
whatever else happens, and this file says how soon.

* What is under the id of a projectile is touched by ticks alone, until another projectile is fired
  under the same id (`perform_projectile?`, `Course.shot_induction`).
* If an edge or a wall stops a projectile at one of its next places, it has fallen when it would be
  there, and is swept away by the tick after that (`Course.shot_ends`).
* Over exact arithmetic, a direction whose square is at least a half has a coordinate of at least a
  half, and so leads at least 15 units further in it with each tick.  A projectile inside the world
  is out of it before it has gone the world's edge (`Projectile.outOfBounds_after`).
* Whoever fires aims with length one (`Course.aim_unit`), so all this is true of every shot: what is
  in the world was fired lately (`Course.fired_lately`), and the projectiles are no more than the
  shots lately (`shots_are_short_lived`).
-/

namespace TankArena

open Table (Keyed)

variable {K : Type}

/-! ## 1. What is done to one shot -/

namespace Moment

variable [Scalar K]

/-- The id of the projectile that the operation fires, if it fires one. -/
def launch? (m : Moment K) : Option UInt32 :=
  match m.op.pull? with
  | some (_, .main, _) => m.outcome.shot?
  | _ => none

theorem launch?_eq_some {m : Moment K} {id : UInt32} :
    m.launch? = some id ↔ m.outcome.shot? = some id ∧ ∃ key now, m.op.pull? = some (key, .main, now) := by
  unfold launch?
  rcases m.op.pull? with _ | ⟨key, _ | _ | _, now⟩ <;> simp

omit [Scalar K] in
theorem op_eq_tick {m : Moment K} {now : Time} (h : m.tickAt? = some now) : m.op = .tick now := by
  obtain ⟨w, op⟩ := m
  cases op <;> simp_all [tickAt?]

end Moment

/-- How many ticks there are in a part of a course. -/
def tickCount (past : List (Moment K)) : Nat := past.countP fun m => m.tickAt?.isSome

theorem tickCount_cons (m : Moment K) (past : List (Moment K)) :
    tickCount (m :: past) = tickCount past + m.tickAt?.isSome.toNat := by
  unfold tickCount
  rw [List.countP_cons]
  cases m.tickAt?.isSome <;> rfl

/-- The latest part of a course: all that has at most some number of ticks after it. -/
def lately : List (Moment K) → Nat → List (Moment K)
  | [], _ => []
  | m :: past, n =>
    match m.tickAt?, n with
    | none, n => m :: lately past n
    | some _, 0 => []
    | some _, n + 1 => m :: lately past n

/-- What has few ticks after it was lately. -/
theorem mem_lately {m : Moment K} (hm : m.tickAt? = none) {later past : List (Moment K)} {n : Nat}
    (hn : tickCount later ≤ n) : m ∈ lately (later ++ m :: past) n := by
  induction later generalizing n with
  | nil => simp [lately, hm]
  | cons first later ih =>
    rw [tickCount_cons] at hn
    cases hfirst : first.tickAt? with
    | none =>
      rw [hfirst] at hn
      have hmem := ih (n := n) (by simpa using hn)
      simp [lately, hfirst, hmem]
    | some now =>
      rw [hfirst] at hn
      obtain ⟨k, rfl⟩ : ∃ k, n = k + 1 := Nat.exists_eq_add_one_of_ne_zero (by rintro rfl; simp at hn)
      have hmem := ih (n := k) (by simpa using hn)
      simp [lately, hfirst, hmem]

namespace World

section Shots

variable {w : World K}

theorem fire_projectile? {key id : UInt32} {trigger : Trigger} {now : Time}
    (h : trigger = .main → (w.fire key trigger now).2 ≠ some id) :
    (w.fire key trigger now).1.projectile? id = w.projectile? id := by
  rcases fire_cases key trigger now w with
    hnone | ⟨t, _, _, hmain, _, hfire⟩ | ⟨t, _, _, _, _, hfire⟩
  · rw [hnone]
  · have hfired := h hmain
    rw [hfire] at hfired ⊢
    exact (Table.find?_put id _ _).trans (if_neg fun hid => hfired (congrArg some hid.symm))
  · rw [hfire]
    rfl

end Shots

variable [Scalar K] {start v w : World K} {past later : List (Moment K)} {op : Operation K}
  {id : UInt32}

/-- **What is no tick leaves a projectile alone**, unless it fires another one under the same id. -/
theorem perform_projectile? (htick : Moment.tickAt? ⟨w, op⟩ = none)
    (hown : Moment.launch? ⟨w, op⟩ ≠ some id) :
    (w.perform op).1.projectile? id = w.projectile? id := by
  cases op with
  | tick now => cases htick
  | disconnect | purge | snapshot => rfl
  | join key name =>
    change (w.join key name).1.projectile? id = w.projectile? id
    rcases join_cases key name w with ⟨_, hsame⟩ | ⟨_, hnew⟩
    · rw [hsame]
    · rw [hnew]
      rfl
  | fire key trigger now =>
    refine fire_projectile? ?_
    rintro rfl hfired
    exact hown hfired
  | command key c now =>
    rcases command_cases key c now w with hnone | ⟨t, _, _, hobeys⟩
    · change (w.command key c now).1.projectile? id = w.projectile? id
      rw [hnone]
    · change (w.command key c now).1.projectile? id = w.projectile? id
      rw [hobeys]
      refine fire_projectile? (w := { w with tanks := Table.modify key (Tank.obey c) w.tanks }) ?_
      intro hmain hfired
      refine hown (Moment.launch?_eq_some.mpr ⟨?_, key, now, by rw [← hmain]; rfl⟩)
      change (w.command key c now).2 = some id
      rw [hobeys]
      exact hfired

/-- A part of a course is a course of its own. -/
theorem Course.since {m : Moment K} (h : Course start (later ++ m :: past) w) :
    Course (m.world.perform m.op).1 later w := by
  induction later generalizing w with
  | nil => exact Course.start.shuffle h.of_cons.2
  | cons first later ih =>
    obtain ⟨hbefore, hshuffle⟩ := Course.of_cons h
    exact ((ih hbefore).perform first.op).shuffle hshuffle

/-- **What is told of one projectile.**  What holds at first, and is kept by every tick, holds as
long as no other projectile is fired under the id. -/
theorem Course.shot_induction (h : Course start later w) (hi : start.Indexed)
    {P : Nat → Option (Projectile K) → Prop} (hstart : P 0 (start.projectile? id))
    (htick : ∀ (v : World K) (now : Time) (n : Nat), v.Indexed → v.stops = start.stops →
      P n (v.projectile? id) → P (n + 1) ((v.tick now).projectile? id))
    (hown : ∀ m ∈ later, m.launch? ≠ some id) : P (tickCount later) (w.projectile? id) := by
  induction h with
  | start => exact hstart
  | @perform past w op hcourse ih =>
    obtain ⟨hfirst, hrest⟩ := List.forall_mem_cons.mp hown
    have hbefore := ih hrest
    rw [tickCount_cons]
    cases hop : Moment.tickAt? ⟨w, op⟩ with
    | none =>
      rw [perform_projectile? hop hfirst]
      exact hbefore
    | some now =>
      obtain rfl : op = .tick now := Moment.op_eq_tick hop
      exact htick w now _ (hcourse.indexed hi) hcourse.stops_eq hbefore
  | shuffle hcourse hshuffle ih =>
    rw [hshuffle.projectile?_eq (hcourse.indexed hi)]
    exact ih hown

/-! ## 2. The end of a flight -/

/-- What is there after a tick was there before, with the same direction. -/
theorem exists_before_tick (hk : Keyed w.projectiles) {now : Time} {q : Projectile K}
    (hq : (w.tick now).projectile? id = some q) :
    ∃ p, w.projectile? id = some p ∧ q.direction = p.direction := by
  obtain ⟨_, _, htick, _⟩ := tick_projectile? hk now id
  obtain ⟨p, hp, rfl⟩ := Option.map_eq_some_iff.mp (htick.symm.trans hq)
  exact ⟨p, (Option.filter_eq_some_iff.mp hp).1, rfl⟩

/-- No projectile turns. -/
theorem Course.direction_eq (h : Course start later w) (hi : start.Indexed)
    (hown : ∀ m ∈ later, m.launch? ≠ some id) {p q : Projectile K}
    (hp : start.projectile? id = some p) (hq : w.projectile? id = some q) :
    q.direction = p.direction := by
  let P (_ : Nat) (q? : Option (Projectile K)) : Prop :=
    ∀ q, q? = some q → q.direction = p.direction
  have hall : P (tickCount later) (w.projectile? id) := by
    refine h.shot_induction hi (P := P) (fun q hq => ?_) (fun v now n hv _ hP q hq => ?_) hown
    · rw [Option.some.inj (hp.symm.trans hq)]
    · obtain ⟨r, hr, hsame⟩ := exists_before_tick hv.projectiles hq
      exact hsame.trans (hP r hr)
  exact hall q hq

/-- A projectile after a tick that leaves it flying: it has gone its step, and nothing stops it
there. -/
theorem exists_step_of_flies {p? : Option (Projectile K)} (hk : Keyed w.projectiles)
    (hp : w.projectile? id = p?) {now : Time} {q : Projectile K}
    (hq : (w.tick now).projectile? id = some q) (hflies : q.died = false) :
    ∃ p, p? = some p ∧ p.died = false ∧ q = p.step ∧ w.stops q = false := by
  obtain ⟨hit, _, htick, _⟩ := tick_projectile? hk now id
  rw [hp] at htick
  obtain ⟨p, hfound, rfl⟩ := Option.map_eq_some_iff.mp (htick.symm.trans hq)
  obtain ⟨hbefore, _⟩ := Option.filter_eq_some_iff.mp hfound
  obtain ⟨hclear, rfl⟩ := Bool.or_eq_false_iff.mp hflies
  obtain ⟨hdied, hstops⟩ := Bool.or_eq_false_iff.mp hclear
  refine ⟨p, hbefore, hdied, ?_, hstops⟩
  rw [flown, hdied, hstops]
  exact congrArg (fun died => { p.step with died := died }) hdied.symm

/-- A tick sweeps away what has fallen. -/
theorem tick_projectile?_eq_none (hk : Keyed w.projectiles) (now : Time)
    (h : ∀ p, w.projectile? id = some p → p.died = true) :
    (w.tick now).projectile? id = none := by
  obtain ⟨_, _, htick, _⟩ := tick_projectile? hk now id
  rw [htick, Option.map_eq_none_iff, Option.filter_eq_none_iff]
  intro p hp
  simp [h p hp]

/-- **The end of a flight.**  A projectile that is stopped at one of its next places has fallen when
it would be there, and is gone by the tick after that. -/
theorem Course.shot_ends (h : Course start later w) (hi : start.Indexed)
    (hown : ∀ m ∈ later, m.launch? ≠ some id) {p : Projectile K}
    (hp : start.projectile? id = some p) {last : Nat}
    (hends : ∃ i, 0 < i ∧ i ≤ last ∧ start.stops (p.after i) = true) :
    (last ≤ tickCount later → ∀ q, w.projectile? id = some q → q.died = true) ∧
      (last < tickCount later → w.projectile? id = none) := by
  obtain ⟨i, hpos, hlast, hstops⟩ := hends
  let P (n : Nat) (q? : Option (Projectile K)) : Prop :=
    (∀ q, q? = some q → q.died = false →
      q = p.after n ∧ ∀ j, 0 < j → j ≤ n → start.stops (p.after j) = false) ∧
    (last < n → q? = none)
  have hfallen : ∀ {n q?}, P n q? → last ≤ n → ∀ q, q? = some q → q.died = true := by
    intro n q? hP hn q hq
    refine Bool.of_not_eq_false fun hflies => ?_
    have hclear := (hP.1 q hq hflies).2 i hpos (hlast.trans hn)
    rw [hstops] at hclear
    cases hclear
  have hall : P (tickCount later) (w.projectile? id) := by
    refine h.shot_induction hi (P := P) ⟨fun q hq _ => ?_, fun hnone => absurd hnone (by simp)⟩ ?_
      hown
    · obtain rfl := Option.some.inj (hp.symm.trans hq)
      exact ⟨rfl, fun j hj hzero => absurd hj (by omega)⟩
    · intro v now n hv hsame hP
      refine ⟨fun q hq hflies => ?_, fun hn => ?_⟩
      · obtain ⟨r, hr, hrflies, rfl, hclear⟩ := exists_step_of_flies hv.projectiles rfl hq hflies
        obtain ⟨rfl, hbefore⟩ := hP.1 r hr hrflies
        rw [← Projectile.after_succ] at hclear ⊢
        refine ⟨rfl, fun j hj hle => ?_⟩
        rcases Nat.lt_or_eq_of_le hle with hless | rfl
        · exact hbefore j hj (Nat.lt_succ_iff.mp hless)
        · exact hsame ▸ hclear
      · exact tick_projectile?_eq_none hv.projectiles now (hfallen hP (Nat.lt_succ_iff.mp hn))
  exact ⟨fun hn => hfallen hall hn, hall.2⟩

end World

/-! ## 3. The way out of the world -/

theorem Projectile.after_add [Scalar K] (p : Projectile K) (m n : Nat) :
    (p.after m).after n = p.after (m + n) := by
  induction n with
  | zero => rfl
  | succ n ih => rw [Projectile.after_succ, ih, ← Projectile.after_succ, Nat.add_assoc]

theorem outOfBounds_eq_false_iff {point : Vec ℝ} {half : ℝ} :
    outOfBounds point half = false ↔ |point.x| < half ∧ |point.y| < half := by
  simp only [outOfBounds, Bool.or_eq_false_iff, decide_eq_false_iff_not, not_le, abs_lt, and_assoc]

namespace Projectile

/-- A projectile goes on by the same way with every tick. -/
theorem location_after (p : Projectile ℝ) (n : Nat) :
    (p.after n).location
      = ⟨p.location.x + n * (30 * p.direction.x), p.location.y + n * (30 * p.direction.y)⟩ := by
  have hspeed : (Rules.projectileSpeed : ℝ) = 30 := by norm_num [Rules.projectileSpeed]
  induction n with
  | zero => simp [after, place]
  | succ n ih =>
    have hstep : (p.after (n + 1)).location
        = (p.after n).location + p.direction.scale Rules.projectileSpeed := rfl
    rw [hstep, ih, hspeed, Nat.cast_succ]
    change (⟨p.location.x + n * (30 * p.direction.x) + p.direction.x * 30,
      p.location.y + n * (30 * p.direction.y) + p.direction.y * 30⟩ : Vec ℝ) = _
    rw [Vec.mk.injEq]
    constructor <;> ring

/-- A direction whose square is at least a half has a coordinate of at least a half. -/
theorem half_le_abs {d : Vec ℝ} (h : 1 / 2 ≤ d.dot d) : 1 / 2 ≤ |d.x| ∨ 1 / 2 ≤ |d.y| := by
  by_contra hshort
  obtain ⟨hx, hy⟩ := not_or.mp hshort
  have hx2 : |d.x| * |d.x| < 1 / 2 * (1 / 2) :=
    mul_self_lt_mul_self (abs_nonneg d.x) (not_le.mp hx)
  have hy2 : |d.y| * |d.y| < 1 / 2 * (1 / 2) :=
    mul_self_lt_mul_self (abs_nonneg d.y) (not_le.mp hy)
  rw [abs_mul_abs_self] at hx2 hy2
  have hsum : d.x * d.x + d.y * d.y < 1 / 2 := by linarith
  exact absurd h (not_le.mpr hsum)

/-- In one coordinate `n` steps lead from within the edges to within the edges only if they are
shorter than the world. -/
theorem steps_lt {c d half : ℝ} {n : Nat} (hstart : |c| < half) (hend : |c + n * (30 * d)| < half)
    (hd : 1 / 2 ≤ |d|) : 15 * (n : ℝ) < 2 * half := by
  have hway : |(n : ℝ) * (30 * d)| < 2 * half := by
    rw [abs_lt] at hstart hend ⊢
    constructor <;> linarith
  rw [abs_mul, abs_mul, Nat.abs_cast, abs_of_pos (by norm_num : (0 : ℝ) < 30)] at hway
  nlinarith [Nat.cast_nonneg (α := ℝ) n]

/-- **A projectile leaves the world** within the ticks that 15 units each take it across. -/
theorem outOfBounds_after {p : Projectile ℝ} {half : ℝ} {n : Nat}
    (hdirection : 1 / 2 ≤ p.direction.dot p.direction) (hn : 2 * half < 15 * n)
    (hinside : outOfBounds p.location half = false) :
    outOfBounds (p.after n).location half = true := by
  refine Bool.of_not_eq_false fun hstill => ?_
  rw [location_after] at hstill
  obtain ⟨hx, hy⟩ := outOfBounds_eq_false_iff.mp hinside
  obtain ⟨hx', hy'⟩ := outOfBounds_eq_false_iff.mp hstill
  rcases half_le_abs hdirection with hfar | hfar
  · exact absurd (steps_lt hx hx' hfar) (not_lt.mpr hn.le)
  · exact absurd (steps_lt hy hy' hfar) (not_lt.mpr hn.le)

end Projectile

/-! ## 4. The aim of a tank -/

namespace Vec

/-- What is normalized has length one. -/
theorem dot_of_normalized {v u : Vec ℝ} (h : v.normalized = some u) : u.dot u = 1 := by
  have hsquare : v.length * v.length = v.x * v.x + v.y * v.y :=
    Real.mul_self_sqrt (add_nonneg (mul_self_nonneg v.x) (mul_self_nonneg v.y))
  obtain ⟨hlength, -, rfl⟩ := normalized_eq_some_iff.mp h
  have hne : v.length ≠ 0 := by
    intro hzero
    have hsame : Scalar.same v.length 0.0 = false := hlength
    rw [hzero] at hsame
    simp only [Scalar.same] at hsame
    norm_num at hsame
  change v.x / v.length * (v.x / v.length) + v.y / v.length * (v.y / v.length) = 1
  rw [div_mul_div_comm, div_mul_div_comm, ← add_div, ← hsquare]
  exact div_self (mul_ne_zero hne hne)

end Vec

/-- A tank aims as before, or in a direction that was asked of it. -/
def Tank.AimFrom [Scalar K] (t u : Tank K) : Prop :=
  u.aim = t.aim ∨ ∃ aim : Vec K, aim.normalized = some u.aim

namespace Tank

variable [Scalar K]

theorem heed_aimFrom (c : Command K) (t : Tank K) : t.AimFrom (t.heed c) := by
  unfold heed
  split
  · exact Or.inl rfl
  · cases haim : c.aim.normalized with
    | none => exact Or.inl (by rw [obey, haim]; rfl)
    | some aim => exact Or.inr ⟨c.aim, by rw [obey, haim]; rfl⟩

omit [Scalar K] in
theorem pull_aim (cooldown : Nat) (trigger : Trigger) (now : Time) (t : Tank K) :
    (t.pull cooldown trigger now).aim = t.aim := by
  obtain ⟨_, _, hpull⟩ := pull_eq cooldown trigger now t
  rw [hpull]

end Tank

namespace World

section Aims

variable [Scalar K] {w : World K} {op : Operation K}

/-- What an operation makes of the aim of a tank. -/
theorem Turns.aimFrom {t u : Tank K} (h : w.Turns op t u) : t.AimFrom u := by
  cases op with
  | join key name =>
    obtain rfl : u = t := h
    exact Or.inl rfl
  | disconnect key =>
    simp only [Turns] at h
    split at h <;> exact Or.inl (h ▸ rfl)
  | command key c now =>
    simp only [Turns] at h
    split at h
    · have haim := t.heed_aimFrom c
      unfold Tank.AimFrom at haim ⊢
      rwa [h, Tank.pull_aim]
    · exact Or.inl (h ▸ rfl)
  | fire key trigger now =>
    simp only [Turns] at h
    split at h
    · exact Or.inl (h ▸ Tank.pull_aim _ _ _ t)
    · exact Or.inl (h ▸ rfl)
  | tick now =>
    obtain ⟨b, _, hreturns, hsettles⟩ := h
    obtain ⟨_, _, _, hstep⟩ := b.step_eq
    have hsame : u.aim = b.step.aim := congrArg Tank.Stance.aim hsettles.stance_eq
    rw [hstep] at hsame
    rcases hreturns.same_or_back with rfl | ⟨spot, rfl⟩
    · exact Or.inl hsame
    · exact Or.inl hsame
  | purge | snapshot =>
    obtain rfl : u = { t with joined := false } := h
    exact Or.inl rfl

/-- A tank that has heeded a command aims as before, or where it was told to. -/
theorem exists_before_heeded {id : UInt32} {b : Tank K} (hb : (op.heeded w).tank? id = some b) :
    ∃ t, w.tank? id = some t ∧ t.AimFrom b := by
  cases op with
  | command key c now =>
    rw [Operation.heeded, tank?_heeded] at hb
    obtain ⟨t, ht, rfl⟩ := Option.map_eq_some_iff.mp hb
    refine ⟨t, ht, ?_⟩
    split
    · exact t.heed_aimFrom c
    · exact Or.inl rfl
  | _ => exact ⟨b, hb, Or.inl rfl⟩

end Aims

theorem aim_unit_of_aimFrom {t u : Tank ℝ} (h : t.AimFrom u) (ht : t.aim.dot t.aim = 1) :
    u.aim.dot u.aim = 1 := by
  rcases h with hsame | ⟨_, hnormalized⟩
  · rw [hsame]
    exact ht
  · exact Vec.dot_of_normalized hnormalized

variable {settings : Settings ℝ} {source : Source} {w : World ℝ} {past later : List (Moment ℝ)}
  {id : UInt32}

/-- **Every tank aims with length one.** -/
theorem Course.aim_unit (h : Course (ofSettings settings source) past w) {t : Tank ℝ}
    (ht : w.tank? id = some t) : t.aim.dot t.aim = 1 := by
  refine h.tank_induction (P := fun _ t => t.aim.dot t.aim = 1)
    (sound_ofSettings settings source) (ofSettings_tanks settings source) ?_ ?_ ht
  · intro _ _ _ _ _
    change (1.0 : ℝ) * 1.0 + 0.0 * 0.0 = 1
    norm_num
  · intro _ _ _ _ _ _ _ hturns haim
    exact aim_unit_of_aimFrom hturns.aimFrom haim

/-! ## 5. All shots -/

/-- **Where projectiles come from.**  Each was fired at some moment, and no other under its id
since. -/
theorem Course.exists_launch {K : Type} [Scalar K] {start w : World K} {past : List (Moment K)}
    (h : Course start past w) (hi : start.Indexed) (hnone : start.projectiles = []) {id : UInt32}
    {q : Projectile K} (hq : w.projectile? id = some q) :
    ∃ later m before, past = later ++ m :: before ∧ m.launch? = some id ∧
      ∀ x ∈ later, x.launch? ≠ some id := by
  induction h generalizing q with
  | start =>
    rw [projectile?, hnone] at hq
    cases hq
  | @perform past w op hcourse ih =>
    by_cases hlaunch : Moment.launch? ⟨w, op⟩ = some id
    · exact ⟨[], ⟨w, op⟩, past, rfl, hlaunch, fun _ hx => absurd hx List.not_mem_nil⟩
    · obtain ⟨r, hr⟩ : ∃ r, w.projectile? id = some r := by
        cases hop : Moment.tickAt? ⟨w, op⟩ with
        | none => exact ⟨q, perform_projectile? hop hlaunch ▸ hq⟩
        | some now =>
          obtain rfl : op = .tick now := Moment.op_eq_tick hop
          obtain ⟨r, hr, _⟩ := exists_before_tick (hcourse.indexed hi).projectiles hq
          exact ⟨r, hr⟩
      obtain ⟨later, m, before, rfl, hm, hlater⟩ := ih hr
      exact ⟨⟨w, op⟩ :: later, m, before, rfl, hm, List.forall_mem_cons.mpr ⟨hlaunch, hlater⟩⟩
  | shuffle hcourse hshuffle ih =>
    rw [hshuffle.projectile?_eq (hcourse.indexed hi)] at hq
    exact ih hq

theorem ofSettings_projectiles (settings : Settings ℝ) (source : Source) :
    (ofSettings settings source).projectiles = [] := by
  have hadd : ∀ (n : Nat) (v : World ℝ), (v.addPowerUps n).projectiles = v.projectiles := by
    intro n
    induction n with
    | zero => exact fun v => rfl
    | succ n ih => exact fun v => ih v.addPowerUp
  exact hadd settings.maxPowerUps (empty settings source)

theorem two_mul_half (w : World ℝ) : 2 * w.half = w.size := by
  rw [half_eq]
  ring

/-- A projectile that is inside the world is stopped within the ticks that take it across. -/
theorem stops_after {p : Projectile ℝ} {n : Nat}
    (hdirection : 1 / 2 ≤ p.direction.dot p.direction) (hn : w.size < 15 * n)
    (hclear : w.stops p = false) : w.stops (p.after n) = true := by
  have hlong : 2 * w.half < 15 * n := by
    rw [two_mul_half]
    exact_mod_cast hn
  rw [stops, Projectile.outOfBounds_after hdirection hlong (Bool.or_eq_false_iff.mp hclear).1]
  rfl

/-- **What is in the world was fired lately**, with a direction of length one. -/
theorem Course.fired_lately (h : Course (ofSettings settings source) past w) {n : Nat}
    (hn : settings.universeSize < 15 * n) {q : Projectile ℝ} (hq : w.projectile? id = some q) :
    q.direction.dot q.direction = 1 ∧ ∃ m ∈ lately past (n + 1), m.launch? = some id := by
  have hi := indexed_ofSettings settings source
  obtain ⟨later, m, before, rfl, hlaunch, hlater⟩ :=
    h.exists_launch hi (ofSettings_projectiles settings source) hq
  obtain ⟨hfired, key, now, hpull⟩ := Moment.launch?_eq_some.mp hlaunch
  have huntil : Course (ofSettings settings source) before m.world := h.until
  have hafter : Course (m.world.perform m.op).1 later w := h.since
  have hsound := huntil.sound (sound_ofSettings settings source)
  obtain ⟨b, hb, hp⟩ := exists_projectile_of_fired hsound.keyed hpull hfired
  obtain ⟨t, ht, haim⟩ := exists_before_heeded hb
  have hunit : b.aim.dot b.aim = 1 := aim_unit_of_aimFrom haim (huntil.aim_unit ht)
  have hindexed := (huntil.indexed hi).perform m.op
  refine ⟨by rw [hafter.direction_eq hindexed hlater hp hq]; exact hunit, m, ?_, hlaunch⟩
  have htick : m.tickAt? = none := by
    cases hop : m.tickAt? with
    | none => rfl
    | some at' =>
      rw [Moment.op_eq_tick hop] at hpull
      cases hpull
  refine mem_lately htick (Nat.le_of_not_lt fun hlong => ?_)
  have hsize : (m.world.perform m.op).1.size < 15 * n := by
    have hsame := (huntil.perform m.op).fixed_eq.2.2.2
    rw [hsame, (ofSettings_fixed settings source).2.2.2]
    exact hn
  let p : Projectile ℝ := ⟨id, b.location, b.aim, key, false⟩
  have hdirection : 1 / 2 ≤ (p.after 1).direction.dot (p.after 1).direction := by
    change 1 / 2 ≤ b.aim.dot b.aim
    rw [hunit]
    norm_num
  -- The first step ends outside, or inside and the others lead out.
  have hends : ∃ i, 0 < i ∧ i ≤ n + 1 ∧ (m.world.perform m.op).1.stops (p.after i) = true := by
    cases hfirst : (m.world.perform m.op).1.stops (p.after 1) with
    | true => exact ⟨1, Nat.one_pos, Nat.le_add_left 1 n, hfirst⟩
    | false =>
      have hout := stops_after hdirection hsize hfirst
      rw [p.after_add, Nat.add_comm] at hout
      exact ⟨n + 1, Nat.succ_pos n, le_rfl, hout⟩
  obtain ⟨_, hgone⟩ := hafter.shot_ends hindexed hlater hp hends
  rw [hgone hlong] at hq
  cases hq

/-- **Shots are short-lived.**  Over exact arithmetic, in a world that `n` steps of 15 units lead
across:

* a projectile that a tick leaves flying, with a direction whose square is at least a half, has
  fallen or is gone after `n` more ticks, and is gone after one more, whatever else happens.  (It is
  gone at once if another projectile is fired under its id, as that takes its place.)
* in a course all projectiles have directions of length one, and each was fired no more than `n + 1`
  ticks ago.  So there are no more of them than were fired since. -/
theorem shots_are_short_lived {n size : Nat} (hn : size < 15 * n) :
    (∀ (v w : World ℝ) (now : Time) (later : List (Moment ℝ)) (id : UInt32) (p : Projectile ℝ),
      v.Indexed → v.size = size → (v.tick now).projectile? id = some p → p.died = false →
      1 / 2 ≤ p.direction.dot p.direction → Course (v.tick now) later w →
      (∃ m ∈ later, m.launch? = some id) ∨
        (n ≤ tickCount later → ∀ q, w.projectile? id = some q → q.died = true) ∧
        (n + 1 ≤ tickCount later → w.projectile? id = none)) ∧
    ∀ (settings : Settings ℝ) (source : Source) (past : List (Moment ℝ)) (w : World ℝ),
      settings.universeSize = size → Course (ofSettings settings source) past w →
      (∀ p ∈ w.projectiles, p.direction.dot p.direction = 1 ∧
        ∃ m ∈ lately past (n + 1), m.launch? = some p.id) ∧
      w.projectiles.length ≤ ((lately past (n + 1)).filterMap Moment.launch?).length := by
  constructor
  · intro v w now later id p hv hsize hp hflies hdirection hcourse
    refine or_iff_not_imp_left.mpr fun hown => ?_
    have hlater : ∀ m ∈ later, m.launch? ≠ some id := fun m hm hlaunch => hown ⟨m, hm, hlaunch⟩
    obtain ⟨_, _, _, _, hclear⟩ := exists_step_of_flies hv.projectiles rfl hp hflies
    have hout : v.stops (p.after n) = true := stops_after hdirection (hsize ▸ hn) hclear
    exact hcourse.shot_ends (hv.perform (.tick now)) hlater hp
      ⟨n, Nat.pos_of_ne_zero (by rintro rfl; omega), le_rfl, hout⟩
  · intro settings source past w hsize hcourse
    have hk : Keyed w.projectiles :=
      (hcourse.indexed (indexed_ofSettings settings source)).projectiles
    have hall : ∀ p ∈ w.projectiles, p.direction.dot p.direction = 1 ∧
        ∃ m ∈ lately past (n + 1), m.launch? = some p.id := by
      intro p hp
      have hfound : w.projectile? p.id = some p := (Table.find?_eq_some_iff hk).mpr ⟨hp, rfl⟩
      exact hcourse.fired_lately (hsize ▸ hn) hfound
    refine ⟨hall, ?_⟩
    have hids : w.projectiles.map Projectile.id ⊆ (lately past (n + 1)).filterMap Moment.launch? := by
      intro id hid
      obtain ⟨p, hp, rfl⟩ := List.mem_map.mp hid
      exact List.mem_filterMap.mpr (hall p hp).2
    have hfew := (List.subperm_of_subset hk hids).length_le
    rwa [List.length_map] at hfew

/-- The moments of a run are its operations. -/
theorem op_mem_of_mem_moments {K : Type} [Scalar K] {w : World K} {ops : List (Operation K)}
    {m : Moment K} (hm : m ∈ w.moments ops) : m.op ∈ ops := by
  induction ops generalizing w with
  | nil => cases hm
  | cons op ops ih =>
    rcases List.mem_append.mp hm with hlater | hfirst
    · exact List.mem_cons_of_mem op (ih hlater)
    · rw [List.mem_singleton.mp hfirst]
      exact List.mem_cons_self

/-- As many ticks in a row are counted as there are. -/
theorem tickCount_moments_replicate {K : Type} [Scalar K] (w : World K) (n : Nat) (now : Time) :
    tickCount (w.moments (List.replicate n (.tick now))) = n := by
  induction n generalizing w with
  | zero => rfl
  | succ n ih =>
    have hlast := ih (w.tick now)
    rw [List.replicate_succ, moments, tickCount, List.countP_append]
    exact congrArg (· + 1) hlast

/-- On the range, 134 steps of 15 units lead across a world of 2000.  A tick after the first shot it
still flies, and 135 ticks later it is gone. -/
theorem shots_are_short_lived_range :
    2000 < 15 * 134 ∧ (∃ p, (range.tick 1).projectile? 1 = some p ∧ p.died = false) ∧
      ((range.tick 1).run (List.replicate 135 (.tick 2))).projectile? 1 = none := by
  have hreached : Reachable rangeSettings (Source.ofSeed 1) range := Reachable.start.run _
  obtain ⟨halone, hshot⟩ := exists_firstShot
  have hp := tick_alone hreached.indexed.projectiles halone hshot rfl range_clear 1
  have hsize : range.size = 2000 := hreached.fixed_eq.2.2.2
  have hdirection : (1 : ℝ) / 2 ≤ firstShot.step.direction.dot firstShot.step.direction := by
    change (1 : ℝ) / 2 ≤ (1.0 : ℝ) * 1.0 + 0.0 * 0.0
    norm_num
  have hcourse := course_run (range.tick 1) (List.replicate 135 (.tick 2))
  have hfew : 2000 < 15 * 134 := by decide
  refine ⟨hfew, ⟨_, hp, rfl⟩, ?_⟩
  rcases (shots_are_short_lived hfew).1 range _ 1 _ 1 _ hreached.indexed hsize hp rfl hdirection
    hcourse with ⟨m, hm, hlaunch⟩ | ⟨_, hgone⟩
  · have hop : m.op = .tick 2 := List.eq_of_mem_replicate (op_mem_of_mem_moments hm)
    obtain ⟨_, _, _, hpull⟩ := Moment.launch?_eq_some.mp hlaunch
    rw [hop] at hpull
    cases hpull
  · exact hgone (tickCount_moments_replicate (range.tick 1) 135 2).ge

end World

end TankArena
