import TankArena.Proofs.World.Edges
import TankArena.Proofs.World.Spent

/-!
# Walls stop shots

A tick looks at where a projectile is after its step, and at no place on the way.  What keeps a shot
from passing a wall in between is that a step is 30 units long and a wall reaches 25 units beyond
its segment.

* Whoever starts outside the box of a wall and meets its segment has gone more than 25 of the 30
  units in one direction, and so more than five sixths of the way (`late_of_far`).  What is left is
  less than five units in each direction and does not lead out of the box again
  (`contains_end_of_meets`).
* A projectile starts outside all boxes if a tick has left it alive, since a tick lets none live in
  a box, or if a tank has fired it that overlapped no wall, since the tank was in no box then
  (`Released.not_contains`).
* So a tick that leads across a wall ends the flight (`Course.walls_stop_shots`).

All this is over exact arithmetic.  The walls may run in any direction.
-/

namespace TankArena

open Table (Keyed)

/-! ## 1. Ways -/

namespace Vec

/-- The place after a part of the straight way from one place to another. -/
noncomputable def toward (a b : Vec ℝ) (part : ℝ) : Vec ℝ :=
  ⟨a.x + part * (b.x - a.x), a.y + part * (b.y - a.y)⟩

end Vec

/-- Whether the straight way from one place to another meets a segment. -/
def Meets (a b p q : Vec ℝ) : Prop :=
  ∃ s r, (0 ≤ s ∧ s ≤ 1) ∧ (0 ≤ r ∧ r ≤ 1) ∧ a.toward b s = p.toward q r

theorem part_between {a b part : ℝ} (h : 0 ≤ part ∧ part ≤ 1) :
    min a b ≤ a + part * (b - a) ∧ a + part * (b - a) ≤ max a b := by
  obtain ⟨hstart, hend⟩ := h
  rcases le_total a b with hab | hba
  · rw [min_eq_left hab, max_eq_right hab]
    constructor <;> nlinarith
  · rw [min_eq_right hba, max_eq_left hba]
    constructor <;> nlinarith

/-- Whoever has gone more than 25 units of a step has gone five sixths of it. -/
theorem late_of_far {part d : ℝ} (hstart : 0 ≤ part) (hd : |d| ≤ 30) (hfar : 25 < |part * d|) :
    5 / 6 < part := by
  rw [abs_mul, abs_of_nonneg hstart] at hfar
  have hlong : part * |d| ≤ part * 30 := mul_le_mul_of_nonneg_left hd hstart
  linarith

theorem rest_le {part d : ℝ} (hlate : 5 / 6 < part) (hend : part ≤ 1) (hd : |d| ≤ 30) :
    |d - part * d| ≤ 5 := by
  have hrest : d - part * d = (1 - part) * d := by ring
  calc |d - part * d| = (1 - part) * |d| := by
        rw [hrest, abs_mul, abs_of_nonneg (sub_nonneg.mpr hend)]
    _ ≤ 1 / 6 * 30 := mul_le_mul (by linarith) hd (abs_nonneg d) (by norm_num)
    _ = 5 := by norm_num

/-- **A step that meets a wall from outside ends in its box.** -/
theorem contains_end_of_meets {a b p q : Vec ℝ} (hx : |b.x - a.x| ≤ 30) (hy : |b.y - a.y| ≤ 30)
    (hout : (WallBox.ofSegment p q).contains a = false) (hmeets : Meets a b p q) :
    (WallBox.ofSegment p q).contains b = true := by
  obtain ⟨s, r, ⟨hs, hs'⟩, hr, hmeet⟩ := hmeets
  have hmeetx : a.x + s * (b.x - a.x) = p.x + r * (q.x - p.x) := congrArg Vec.x hmeet
  have hmeety : a.y + s * (b.y - a.y) = p.y + r * (q.y - p.y) := congrArg Vec.y hmeet
  obtain ⟨hleft, hright⟩ := part_between (a := p.x) (b := q.x) hr
  obtain ⟨htop, hbottom⟩ := part_between (a := p.y) (b := q.y) hr
  -- A place within 25 units of the meeting in both directions would be in the box.
  have hfar : 25 < |s * (b.x - a.x)| ∨ 25 < |s * (b.y - a.y)| := by
    by_contra hnear
    rw [not_or, not_lt, not_lt, abs_le, abs_le] at hnear
    obtain ⟨⟨hx1, hx2⟩, hy1, hy2⟩ := hnear
    refine Bool.eq_false_iff.mp hout (WallBox.contains_ofSegment_iff.mpr ⟨⟨?_, ?_⟩, ?_, ?_⟩) <;>
      linarith
  have hlate : 5 / 6 < s := hfar.elim (late_of_far hs hx) (late_of_far hs hy)
  obtain ⟨hrestx, hrestx'⟩ := abs_le.mp (rest_le hlate hs' hx)
  obtain ⟨hresty, hresty'⟩ := abs_le.mp (rest_le hlate hs' hy)
  refine WallBox.contains_ofSegment_iff.mpr ⟨⟨?_, ?_⟩, ?_, ?_⟩ <;> linarith

namespace Projectile

/-- **A step** is 30 times the direction. -/
theorem location_step (p : Projectile ℝ) :
    p.step.location
      = ⟨p.location.x + 30 * p.direction.x, p.location.y + 30 * p.direction.y⟩ := by
  have hspeed : (Rules.projectileSpeed : ℝ) = 30 := by norm_num [Rules.projectileSpeed]
  change (⟨p.location.x + p.direction.x * Rules.projectileSpeed,
    p.location.y + p.direction.y * Rules.projectileSpeed⟩ : Vec ℝ) = _
  rw [hspeed, mul_comm p.direction.x, mul_comm p.direction.y]

/-- The step of a projectile whose direction is no longer than one unit goes no further than 30
units in each direction. -/
theorem abs_step_le {p : Projectile ℝ} (h : p.direction.length ≤ 1) :
    |p.step.location.x - p.location.x| ≤ 30 ∧ |p.step.location.y - p.location.y| ≤ 30 := by
  have hstep : ∀ {c d : ℝ}, |d| ≤ p.direction.length → |c + 30 * d - c| ≤ 30 := by
    intro c d hd
    rw [add_sub_cancel_left, abs_mul, abs_of_pos (by norm_num : (0 : ℝ) < 30)]
    linarith
  rw [location_step]
  exact ⟨hstep p.direction.abs_x_le_length, hstep p.direction.abs_y_le_length⟩

end Projectile

namespace World

section Released

variable {K : Type} [Scalar K]

/-! ## 2. Where shots come from -/

/-- What releases a projectile: a tick that leaves it, or the fire of a tank that overlaps no wall.
-/
inductive Released (v : World K) : Operation K → UInt32 → Prop where
  | left (now : Time) (id : UInt32) : Released v (.tick now) id
  | fired {op : Operation K} {key id : UInt32} {now : Time} {t : Tank K} :
      op.pull? = some (key, .main, now) → (v.perform op).2.shot? = some id →
      v.tank? key = some t → v.blocked t.location = false → Released v op id

/-- A projectile that is fired starts where its tank is. -/
theorem location_of_fired {v : World K} (hk : Keyed v.tanks) {op : Operation K} {key id : UInt32}
    {now : Time} {t : Tank K} {p : Projectile K} (hpull : op.pull? = some (key, .main, now))
    (hfired : (v.perform op).2.shot? = some id) (ht : v.tank? key = some t)
    (hp : (v.perform op).1.projectile? id = some p) : p.location = t.location := by
  obtain ⟨b, hb, hshot⟩ := exists_projectile_of_fired hk hpull hfired
  obtain ⟨c, hc, hsame, _⟩ := exists_heeded ht op
  obtain rfl : c = b := Option.some.inj (hc.symm.trans hb)
  obtain rfl := Option.some.inj (hshot.symm.trans hp)
  exact hsame

end Released

variable {v w : World ℝ} {op : Operation ℝ} {id : UInt32} {p : Projectile ℝ}

/-- **A projectile that is released is in no box.** -/
theorem Released.not_contains (h : v.Released op id) (hs : v.Sound)
    (hp : (v.perform op).1.projectile? id = some p) (hflies : p.died = false) :
    ∀ box ∈ v.boxes, box.contains p.location = false := by
  cases h with
  | left now => exact (inside_of_mem_tick (Table.mem_of_find? hp) hflies).2
  | fired hpull hfired ht hclear =>
    intro box hbox
    rw [location_of_fired hs.keyed hpull hfired ht hp]
    refine Bool.eq_false_iff.mpr fun hin => ?_
    exact Bool.eq_false_iff.mp hclear
      (List.any_eq_true.mpr ⟨box, hbox, WallBox.overlapsTank_of_contains hin⟩)

/-! ## 3. A tick across a wall -/

/-- A step that ends in a box ends the flight. -/
theorem exists_fallen (hk : Keyed w.projectiles) (hp : w.projectile? id = some p)
    (hflies : p.died = false) {box : WallBox ℝ} (hbox : box ∈ w.boxes)
    (hin : box.contains p.step.location = true) (now : Time) :
    ∃ q, (w.tick now).projectile? id = some q ∧ q.died = true := by
  obtain ⟨hit, _, htick, _⟩ := tick_projectile? hk now id
  rw [hp, Option.filter_some, if_pos (by simp [hflies]), Option.map_some] at htick
  refine ⟨_, htick, ?_⟩
  have hany : (w.boxes.any fun box => box.contains p.step.location) = true :=
    List.any_eq_true.mpr ⟨box, hbox, hin⟩
  simp only [flown, stops, hany, Bool.or_true, Bool.true_or]

/-- **Walls stop shots.**  Over exact arithmetic, in a course of a world with whatever walls, a
projectile that flies, whose direction is no longer than one unit, and that is still as a tick has
left it or as a tank has fired it that overlapped no wall, falls in the next tick if the way from
where it is to 30 times its direction further meets the segment of a wall. -/
theorem Course.walls_stop_shots {settings : Settings ℝ} {source : Source}
    {past later : List (Moment ℝ)}
    (h : Course (ofSettings settings source) (later ++ ⟨v, op⟩ :: past) w)
    (hreleased : v.Released op id) (hbefore : (v.perform op).1.projectile? id = some p)
    (hp : w.projectile? id = some p) (hflies : p.died = false)
    (hdirection : p.direction.length ≤ 1) {wall : Wall ℝ} (hwall : wall ∈ w.walls)
    (hmeets : Meets p.location
      ⟨p.location.x + 30 * p.direction.x, p.location.y + 30 * p.direction.y⟩ wall.p1 wall.p2)
    (now : Time) :
    ∃ q, (w.tick now).projectile? id = some q ∧ q.died = true := by
  have huntil : Course (ofSettings settings source) past v := h.until
  have hboxes : w.boxes = v.boxes := by
    rw [boxes, boxes, h.fixed_eq.2.2.1, huntil.fixed_eq.2.2.1]
  have hbox : WallBox.ofSegment wall.p1 wall.p2 ∈ w.boxes :=
    List.mem_map_of_mem (f := fun r : Wall ℝ => WallBox.ofSegment r.p1 r.p2) hwall
  have hout := hreleased.not_contains (huntil.sound (sound_ofSettings settings source)) hbefore
    hflies _ (hboxes ▸ hbox)
  rw [← p.location_step] at hmeets
  obtain ⟨hx, hy⟩ := Projectile.abs_step_le hdirection
  exact exists_fallen (h.indexed (indexed_ofSettings settings source)).projectiles hp hflies hbox
    (contains_end_of_meets hx hy hout hmeets) now

/-! ## 4. A shooting range -/

/-- With nobody but its owner around, a projectile flies on as long as nothing stops it. -/
theorem tick_alone {K : Type} [Scalar K] {w : World K} {id : UInt32} {p : Projectile K}
    (hk : Keyed w.projectiles) (halone : ∀ t ∈ w.tanks, t.id = p.owner)
    (hp : w.projectile? id = some p) (hflies : p.died = false) (hclear : w.stops p.step = false)
    (now : Time) : (w.tick now).projectile? id = some p.step := by
  obtain ⟨hit, _, htick, _⟩ := tick_projectile? hk now id
  rw [hp, Option.filter_some, if_pos (by simp [hflies]), Option.map_some] at htick
  cases hhit : hit with
  | false =>
    rw [htick, hhit, flown, hclear, Bool.or_false, Bool.or_false]
    rfl
  | true =>
    obtain ⟨q, hq, hspent⟩ : ∃ q ∈ w.spent now, q.owner = p.owner := by
      have hfell := fall_of_died hk (Table.mem_of_find? htick) (by simp [hhit])
      have hstops : w.stops (w.flown p) = false := hclear
      rw [stops, Bool.or_eq_false_iff, List.any_eq_false] at hstops
      rcases hfell with hedge | ⟨box, hbox, hin⟩ | ⟨q, hq, hqp⟩
      · exact absurd (hstops.1.symm.trans hedge) (by decide)
      · exact absurd hin (hstops.2 box hbox)
      · exact ⟨q, hq, (congrArg Projectile.owner hqp).symm⟩
    obtain ⟨u, hu, _, hother, _⟩ := near_of_mem_spent hk hq
    obtain ⟨t, ht, hchanges⟩ := Table.exists_before_of_forall₂ (changes_walled now w) hu
    exact absurd ((Tank.Changes.id_eq hchanges).trans ((halone t ht).trans hspent.symm)) hother

/-- Where the first tank of the range is put. -/
noncomputable def stand : Vec ℝ := ((Source.ofSeed 1).place (1000 : ℝ)).1

/-- The wall of the range, 58 units to the right of the stand. -/
noncomputable def butt : Segment ℝ :=
  ⟨⟨stand.x + 58, stand.y - 100⟩, ⟨stand.x + 58, stand.y + 100⟩⟩

/-- A world with a wall across the line of fire of the tank that comes first. -/
noncomputable def rangeSettings : Settings ℝ :=
  { universeSize := 2000, maxPowerUps := 0, walls := [butt] }

/-- The range after the first shot. -/
noncomputable def range : World ℝ :=
  (ofSettings rangeSettings (Source.ofSeed 1)).run [.join 1 "ada", .fire 1 .main 0]

/-- The first shot. -/
noncomputable def firstShot : Projectile ℝ := ⟨1, stand, Vec.right, 1, false⟩

/-- Who joins an empty world and fires is alone there with the shot. -/
theorem exists_shot_of_newcomer {K : Type} [Scalar K] {start : World K} (hs : start.Sound)
    (hnobody : start.tanks = []) (id : UInt32) (name : String) (now : Time) :
    let w := start.run [.join id name, .fire id .main now]
    (∀ t ∈ w.tanks, t.id = id) ∧ w.projectile? start.nextObject
      = some ⟨start.nextObject, (start.source.place start.half).1, Vec.right, id, false⟩ := by
  intro w
  let joined := (start.join id name).1
  have hrun : w = (joined.perform (.fire id .main now)).1 := rfl
  have hk : Keyed joined.tanks := (hs.join id name).keyed
  have hnew : Table.has id start.tanks = false := by rw [hnobody]; rfl
  have htank := tank?_join hnew name
  obtain ⟨halone, hnext⟩ : (∀ t ∈ joined.tanks, t.id = id) ∧
      joined.nextObject = start.nextObject := by
    rcases join_cases id name start with ⟨hused, _⟩ | ⟨_, hjoin⟩
    · exact absurd (hused.symm.trans hnew) (by decide)
    · have hjoined : joined = _ := congrArg Prod.fst hjoin
      rw [hjoined, hnobody]
      exact ⟨fun t ht => congrArg Tank.id (List.mem_singleton.mp ht), rfl⟩
  have hpull : (Operation.fire id .main now : Operation K).pull? = some (id, .main, now) := rfl
  rw [hrun]
  constructor
  · rw [perform_tanks_of_pull hk hpull]
    intro t ht
    obtain ⟨b, hb, rfl⟩ := List.mem_map.mp ht
    split
    · exact (Tank.pull_id _ _ _ b).trans (halone b hb)
    · exact halone b hb
  · have hfires : (joined.perform (.fire id .main now)).2.shot?.isSome = true := by
      rw [isSome_shot?_perform hk hpull, shot?_of_tank? htank]
      rfl
    obtain ⟨shot, hfired⟩ := Option.isSome_iff_exists.mp hfires
    obtain ⟨b, hb, hshot⟩ := exists_projectile_of_fired hk hpull hfired
    obtain rfl := Option.some.inj (htank.symm.trans hb)
    obtain rfl : shot = start.nextObject := (perform_of_fired hk hpull hfired).1.trans hnext
    exact hshot

theorem exists_firstShot :
    (∀ t ∈ range.tanks, t.id = 1) ∧ range.projectile? 1 = some firstShot := by
  have hhalf : (ofSettings rangeSettings (Source.ofSeed 1)).half = 1000 := by
    rw [Reachable.start.half_eq]
    norm_num [rangeSettings]
  have hsource : (ofSettings rangeSettings (Source.ofSeed 1)).source = Source.ofSeed 1 := rfl
  have hnext : (ofSettings rangeSettings (Source.ofSeed 1)).nextObject = 1 := rfl
  obtain ⟨halone, hshot⟩ := exists_shot_of_newcomer
    (sound_ofSettings rangeSettings (Source.ofSeed 1))
    (ofSettings_tanks rangeSettings (Source.ofSeed 1)) 1 "ada" 0
  rw [hnext, hhalf, hsource] at hshot
  exact ⟨halone, hshot⟩

theorem step_of_right {p : Projectile ℝ} (hdirection : p.direction = Vec.right) :
    p.step.location = ⟨p.location.x + 30, p.location.y⟩ := by
  rw [Projectile.location_step, hdirection]
  norm_num [Vec.right]

/-- The first step of the shot ends in front of the wall. -/
theorem range_clear : range.stops firstShot.step = false := by
  have hreached : Reachable rangeSettings (Source.ofSeed 1) range := Reachable.start.run _
  obtain ⟨_, _, hwalls, _⟩ := hreached.fixed_eq
  have hhalf : range.half = 1000 := by
    rw [hreached.half_eq]
    norm_num [rangeSettings]
  have hboxes : range.boxes = [WallBox.ofSegment butt.p1 butt.p2] := by
    rw [boxes, hwalls]
    rfl
  have hend : firstShot.step.location = ⟨stand.x + 30, stand.y⟩ := step_of_right rfl
  obtain ⟨hx, hy⟩ := Source.abs_place_le (by norm_num : (0 : ℝ) < 1000) (Source.ofSeed 1)
  obtain ⟨hleft, hright⟩ := abs_le.mp hx
  obtain ⟨htop, hbottom⟩ := abs_le.mp hy
  rw [stops, Bool.or_eq_false_iff, hboxes, hend, hhalf]
  constructor
  · simp only [outOfBounds, Bool.or_eq_false_iff, decide_eq_false_iff_not, not_le]
    refine ⟨⟨⟨?_, ?_⟩, ?_⟩, ?_⟩ <;> unfold stand <;> linarith
  · rw [List.any_cons, List.any_nil, Bool.or_false, Bool.eq_false_iff, ne_eq,
      WallBox.contains_ofSegment_iff]
    rintro ⟨⟨hnear, _⟩, _⟩
    have hbutt : min butt.p1.x butt.p2.x = stand.x + 58 := min_self _
    rw [hbutt] at hnear
    linarith

/-- After a tick the shot has come within 28 units of the wall, and its next step leads across. -/
theorem walls_stop_shots_range : ∃ p q, (range.tick 1).projectile? 1 = some p ∧ p.died = false ∧
    ((range.tick 1).tick 2).projectile? 1 = some q ∧ q.died = true := by
  have hcourse : Course (ofSettings rangeSettings (Source.ofSeed 1)) ([] ++ ⟨range, .tick 1⟩ :: _)
      (range.tick 1) := (course_run _ _).tick 1
  obtain ⟨halone, hshot⟩ := exists_firstShot
  have hk : Keyed range.projectiles := (hcourse.until.indexed (indexed_ofSettings _ _)).projectiles
  have hp := tick_alone hk halone hshot rfl range_clear 1
  have hwall : (⟨0, butt.p1, butt.p2⟩ : Wall ℝ) ∈ (range.tick 1).walls := by
    rw [hcourse.reachable.fixed_eq.2.2.1]
    exact List.mem_cons_self
  have hmeets : Meets firstShot.step.location firstShot.step.step.location butt.p1 butt.p2 := by
    refine ⟨28 / 30, 1 / 2, by norm_num, by norm_num, ?_⟩
    rw [step_of_right (p := firstShot.step) rfl, step_of_right (p := firstShot) rfl]
    simp only [Vec.toward, firstShot, butt, Vec.mk.injEq]
    constructor <;> ring
  have hdirection : firstShot.step.direction.length ≤ 1 := by
    change √((1.0 : ℝ) * 1.0 + 0.0 * 0.0) ≤ 1
    norm_num
  rw [Projectile.location_step firstShot.step] at hmeets
  obtain ⟨q, hq, hfell⟩ :=
    hcourse.walls_stop_shots (.left 1 1) hp hp rfl hdirection hwall hmeets 2
  exact ⟨firstShot.step, q, hp, rfl, hq, hfell⟩

end World

end TankArena
