import TankArena.Proofs.World.Beginning
import TankArena.Proofs.World.Respawn
import TankArena.Proofs.World.Walls

/-!
# Tanks and edges

A tank that drives over an edge of the world comes in at the opposite one.  The way around is gone
once in a tick, so it leads back into the world only if a step is no longer than the world.

* In a tick a tank ends where it came back to or was before, or around the edges from there, or from
  one step ahead (`exists_carried`).
* Over exact arithmetic, in a world at least three units wide, all three are inside the world if the
  tank was (`inside_tick`), so no tank ever leaves it (`Reachable.inside`).
* Narrower worlds are accepted as well, and a tank leaves one by its first step
  (`narrow_world_is_left`).
-/

namespace TankArena

open Table (Keyed)

namespace World

section Carried

variable {K : Type} [Scalar K] {w : World K}

/-! ## 1. Where a tick carries a tank -/

/-- **Where a tick carries a tank** from the place where it was before or came back to: nowhere,
around the edges, or a step ahead and around the edges. -/
theorem exists_carried (hk : Keyed w.tanks) {now : Time} {id : UInt32} {u : Tank K}
    (hu : (w.tick now).tank? id = some u) :
    ∃ t b, w.tank? id = some t ∧ w.Returns now t b ∧
      (u.location = b.location ∨ u.location = w.around b.location ∨
        u.location = w.around (b.drive.ahead b.location)) := by
  obtain ⟨t, ht, b, hb, hreturns, _⟩ := tank?_tick hu
  have hid : t.id = id := Table.ident_of_find? ht
  rw [hid] at hb
  refine ⟨t, b, ht, hreturns, ?_⟩
  cases hlive : b.isLive with
  | false =>
    obtain ⟨v, hv, hdead, _⟩ := exists_fate hk hb
    obtain rfl : v = u := Option.some.inj (hv.symm.trans hu)
    rw [hdead hlive]
    exact Or.inr (Or.inl rfl)
  | true =>
    obtain ⟨d, v, _, hd, hv, hlocation⟩ := exists_tried hb hlive
    obtain rfl : v = u := Option.some.inj (hv.symm.trans hu)
    rw [hlocation, hd]
    split
    · exact Or.inl rfl
    · exact Or.inr (Or.inr rfl)

end Carried

/-! ## 2. Inside the world -/

variable {w : World ℝ}

/-- A place between the edges of the world, or on one. -/
def Inside (w : World ℝ) (place : Vec ℝ) : Prop := |place.x| ≤ w.half ∧ |place.y| ≤ w.half

theorem inside_place (hhalf : 0 < w.half) (s : Source) : w.Inside (s.place w.half).1 := by
  obtain ⟨hx, hy⟩ := Source.abs_place_le hhalf s
  constructor <;> linarith

/-- The way around the edges leads inside from anywhere that is outside by no more than the world is
wide. -/
theorem inside_around {place : Vec ℝ} {beyond : ℝ} (hbeyond : beyond ≤ 2 * w.half)
    (hx : |place.x| ≤ w.half + beyond) (hy : |place.y| ≤ w.half + beyond) :
    w.Inside (w.around place) :=
  ⟨abs_wrapCoordinate_le hbeyond hx, abs_wrapCoordinate_le hbeyond hy⟩

/-- A step goes three units along one axis. -/
theorem abs_ahead_le (d : Drive) {place : Vec ℝ} {bound : ℝ} (hx : |place.x| ≤ bound)
    (hy : |place.y| ≤ bound) :
    |(d.ahead place).x| ≤ bound + 3 ∧ |(d.ahead place).y| ≤ bound + 3 := by
  rw [abs_le] at hx hy ⊢
  rw [abs_le]
  cases d <;>
    simp only [Drive.ahead, Drive.heading?, Option.elim] <;>
    norm_num <;> (refine ⟨⟨?_, ?_⟩, ?_, ?_⟩) <;> linarith

/-- **One tick keeps tanks inside** a world that is at least as wide as a step. -/
theorem inside_tick (hwide : 3 ≤ 2 * w.half) (hk : Keyed w.tanks)
    (hinside : ∀ id t, w.tank? id = some t → w.Inside t.location) {now : Time} {id : UInt32}
    {u : Tank ℝ} (hu : (w.tick now).tank? id = some u) : w.Inside u.location := by
  obtain ⟨t, b, ht, hreturns, hcarried⟩ := exists_carried hk hu
  have hb : w.Inside b.location := by
    unfold Returns at hreturns
    split at hreturns
    · obtain ⟨source, rfl⟩ := hreturns
      exact inside_place (by linarith) source
    · exact hreturns ▸ hinside id t ht
  rcases hcarried with hstays | hedge | hahead
  · exact hstays ▸ hb
  · have hstep : (0 : ℝ) ≤ 2 * w.half := by linarith
    rw [hedge]
    refine inside_around hstep ?_ ?_
    · rw [add_zero]
      exact hb.1
    · rw [add_zero]
      exact hb.2
  · obtain ⟨hx, hy⟩ := abs_ahead_le b.drive hb.1 hb.2
    rw [hahead]
    exact inside_around hwide hx hy

variable {settings : Settings ℝ} {source : Source}

theorem Reachable.half_eq (h : Reachable settings source w) :
    w.half = settings.universeSize / 2 := by
  obtain ⟨_, _, _, hsize⟩ := h.fixed_eq
  rw [World.half_eq, hsize]

/-- **No tank leaves a world that is at least as wide as a step.**  By induction on what leads to
the world: a tank is put inside when it is added, and nothing but a tick moves it. -/
theorem Reachable.inside (h : Reachable settings source w) (hwide : 3 ≤ settings.universeSize)
    {id : UInt32} {t : Tank ℝ} (ht : w.tank? id = some t) : w.Inside t.location := by
  have hsize : (3 : ℝ) ≤ settings.universeSize := by exact_mod_cast hwide
  induction h generalizing id t with
  | start =>
    rw [tank?, ofSettings_tanks] at ht
    cases ht
  | @perform w op hw ih =>
    have hhalf := hw.half_eq
    have hsame : (w.perform op).1.half = w.half := (hw.perform op).half_eq.trans hhalf.symm
    rw [Inside, hsame]
    rcases tank?_perform hw.sound.keyed ht with ⟨hadds, _⟩ | ⟨_, b, hb, hturns⟩
    · rw [location_of_adds ht hadds]
      exact inside_place (by linarith) w.source
    · cases htick : Moment.tickAt? ⟨w, op⟩ with
      | none =>
        rw [(hturns.same_place htick).1]
        exact ih hb
      | some now =>
        obtain rfl : op = .tick now := by
          cases op <;> simp_all [Moment.tickAt?]
        exact inside_tick (by linarith) hw.sound.keyed (fun _ _ => ih) ht
  | @shuffle w w' hw hshuffle ih =>
    rw [Inside, (hw.shuffle hshuffle).half_eq, ← hw.half_eq]
    have hbefore : w.tank? id = some t := by
      unfold tank? at ht ⊢
      rwa [hw.sound.keyed.find?_perm hshuffle.tanks] at ht
    exact ih hbefore

/-- **Tanks stay inside the world.**  Over exact arithmetic, in every state of a world at least
three units wide, both coordinates of every tank are between the edges, whatever the source draws,
however walls stand, and whatever is done. -/
theorem tanks_stay_inside (hwide : 3 ≤ settings.universeSize) (hw : Reachable settings source w) :
    w.half = settings.universeSize / 2 ∧
      ∀ t ∈ w.tanks, |t.location.x| ≤ w.half ∧ |t.location.y| ≤ w.half := by
  refine ⟨hw.half_eq, fun t ht => ?_⟩
  have hfound : w.tank? t.id = some t := (Table.find?_eq_some_iff hw.sound.keyed).mpr ⟨ht, rfl⟩
  exact hw.inside hwide hfound

/-! ## 3. A drive to the right -/

/-- A tank that is told to drive right, for one tick. -/
noncomputable def driveRight : List (Operation ℝ) :=
  [.join 1 "ada", .command 1 ⟨.right, .idle, Vec.right⟩ 0, .tick 0]

/-- Without walls it ends three units to the right of where it was put, around the edges. -/
theorem exists_driven_right (settings : Settings ℝ) (source : Source)
    (hwalls : settings.walls = []) :
    ∃ (t : Tank ℝ) (drawn : Source),
      ((ofSettings settings source).run driveRight).tank? 1 = some t ∧
      t.location.x = wrapCoordinate ((drawn.place (settings.universeSize / 2 : ℝ)).1.x + 3)
        (settings.universeSize / 2) := by
  let start := ofSettings settings source
  let joined := (start.join 1 "ada").1
  let told := (joined.command 1 ⟨.right, .idle, Vec.right⟩ 0).1
  have hjoined : Reachable settings source joined := Reachable.start.perform (.join 1 "ada")
  have htold : Reachable settings source told :=
    hjoined.perform (.command 1 ⟨.right, .idle, Vec.right⟩ 0)
  have hnew : Table.has 1 start.tanks = false := by rw [ofSettings_tanks]; rfl
  have hboxes : told.boxes = [] := by
    obtain ⟨_, _, hsame, _⟩ := htold.fixed_eq
    rw [boxes, hsame, Settings.wallRecords, hwalls]
    rfl
  have hheard := tank?_command hjoined.sound.keyed 1 1 ⟨.right, .idle, Vec.right⟩ 0
  rw [tank?_join hnew "ada", Option.map_some, if_pos rfl] at hheard
  obtain ⟨b, hb, hplace, hdrive, hlive, hclock⟩ : ∃ b, told.tank? 1 = some b ∧
      b.location = (start.source.place start.half).1 ∧ b.drive = .right ∧ b.isLive = true ∧
      b.diedAt = none := ⟨_, hheard, rfl, rfl, rfl, rfl⟩
  have hback := returned_tank? 0 1 told
  rw [hb, Option.map_some, if_neg (by simp [Tank.isDue, hclock])] at hback
  obtain ⟨d, u, _, hd, hu, hlocation⟩ := exists_tried hback hlive
  rw [hboxes, List.any_nil, if_neg Bool.false_ne_true, hd, hdrive, hplace] at hlocation
  have hrun : start.run driveRight = told.tick 0 := by
    rw [run, driveRight, List.foldl_cons, List.foldl_cons, List.foldl_cons, List.foldl_nil]
    rfl
  refine ⟨u, start.source, hrun ▸ hu, ?_⟩
  rw [hlocation, around, htold.half_eq, Reachable.start.half_eq]
  simp only [Drive.ahead, Drive.heading?, Option.elim]
  norm_num

/-- The settings of a world of some width without walls and power-ups. -/
def bareSettings (width : Nat) : Settings ℝ := { universeSize := width, maxPowerUps := 0 }

/-- In a world that is just wide enough the tank comes in at the left edge. -/
theorem tanks_stay_inside_driven :
    ∃ t, ((ofSettings (bareSettings 3) (Source.ofSeed 1)).run driveRight).tank? 1 = some t ∧
      |t.location.x| ≤ 3 / 2 ∧ |t.location.y| ≤ 3 / 2 := by
  have hreached : Reachable (bareSettings 3) (Source.ofSeed 1)
      ((ofSettings (bareSettings 3) (Source.ofSeed 1)).run driveRight) :=
    Reachable.start.run driveRight
  obtain ⟨t, _, ht, _⟩ := exists_driven_right (bareSettings 3) (Source.ofSeed 1) rfl
  obtain ⟨hhalf, hall⟩ := tanks_stay_inside (by decide) hreached
  have hwidth : ((bareSettings 3).universeSize : ℝ) / 2 = 3 / 2 := by norm_num [bareSettings]
  rw [hhalf, hwidth] at hall
  exact ⟨t, ht, hall t (Table.mem_of_find? ht)⟩

/-- **A world narrower than a step is accepted and left.**  Its tank drives over the right edge,
goes the way around once, and is still beyond the edge. -/
theorem narrow_world_is_left :
    (bareSettings 1).fault? = none ∧
      ((ofSettings (bareSettings 1) (Source.ofSeed 1)).run driveRight).half = 1 / 2 ∧
      ∃ t, ((ofSettings (bareSettings 1) (Source.ofSeed 1)).run driveRight).tank? 1 = some t ∧
        1 / 2 < t.location.x := by
  have hreached : Reachable (bareSettings 1) (Source.ofSeed 1)
      ((ofSettings (bareSettings 1) (Source.ofSeed 1)).run driveRight) :=
    Reachable.start.run driveRight
  have hwidth : ((bareSettings 1).universeSize : ℝ) / 2 = 1 / 2 := by norm_num [bareSettings]
  obtain ⟨t, drawn, ht, hdriven⟩ := exists_driven_right (bareSettings 1) (Source.ofSeed 1) rfl
  rw [hwidth] at hdriven
  have hplace := (Source.abs_place_le (by norm_num : (0 : ℝ) < 1 / 2) drawn).1
  refine ⟨rfl, hreached.half_eq.trans hwidth, t, ht, ?_⟩
  rw [hdriven]
  refine lt_wrapCoordinate (by norm_num) ?_
  linarith [(abs_le.mp hplace).1]

end World

end TankArena
