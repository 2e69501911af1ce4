import TankArena.Proofs.World.Course

/-!
# Tanks and walls

A tank drives around the edges of the world, and into whatever stands on the other side.  Walls are
looked at once everything has moved, and a tank that overlaps one goes back to a place that it
remembers.  This file shows that the place is its own.

* In a tick a live tank ends where it tried to go, which is clear of all walls, or where it was
  before it moved (`exists_clear_or_back`).
* `spawns` are the places where a tank was put since it was added, when it joined and each time that
  it came back.  If these are clear, the tank is clear as long as it is live
  (`Course.not_blocked`), since a step leads from a clear place to a clear place.

Nothing is assumed of the walls: they may stand in each other, and a tank may be put inside one.
-/

namespace TankArena

open Table (Keyed)

variable {K : Type} [Scalar K]

namespace World

/-! ## 1. Places in a wall -/

/-- Whether a tank at a place overlaps a wall. -/
def blocked (w : World K) (location : Vec K) : Bool :=
  w.boxes.any fun box => box.overlapsTank location

variable {start w : World K} {past : List (Moment K)}

theorem Course.blocked_eq (h : Course start past w) : w.blocked = start.blocked := by
  obtain ⟨_, _, hwalls, _⟩ := h.fixed_eq
  funext location
  unfold blocked boxes
  rw [hwalls]

/-! ## 2. One tick -/

/-- **A tick and the walls.**  A tank that is live when walls are looked at stays where it has moved
to if no wall is there, and is otherwise where it was before it moved: where it was before the tick,
or at the place that it has come back to. -/
theorem exists_clear_or_back {now : Time} {id : UInt32} {m : Tank K}
    (hm : (w.moved now).tank? id = some m) (hlive : m.isLive = true) :
    ∃ t b u, w.tank? id = some t ∧ w.Returns now t b ∧ (w.returned now).tank? id = some b ∧
      m.location = w.around (b.drive.ahead b.location) ∧ (w.tick now).tank? id = some u ∧
      u.location = if w.blocked m.location then b.location else m.location := by
  have hid : ∀ b : Tank K, Identified.ident (b.step.wrap w.half) = Identified.ident b :=
    Tank.step_id
  unfold tank? at hm
  rw [moved_tanks_eq, Table.find?_map hid] at hm
  obtain ⟨b, hb, rfl⟩ := Option.map_eq_some_iff.mp hm
  obtain ⟨t, ht, hreturns⟩ := Table.exists_found_before (fun _ _ h => Returns.id_eq h)
    (returned_tanks now w) hb
  have hblive : b.isLive = true := b.isLive_step.symm.trans hlive
  obtain ⟨d, u, hd, hdlocation, hu, hulocation⟩ := exists_tried hb hblive
  have hmlocation : (b.step.wrap w.half).location = w.around d.location := by
    rw [hdlocation, ← (Tank.step_of_isLive hblive).1]
    rfl
  refine ⟨t, b, u, ht, hreturns, hb, hdlocation ▸ hmlocation, hu, ?_⟩
  rw [hmlocation]
  exact hulocation

/-- A live tank that a tick leaves is clear if it was clear before it moved. -/
theorem Passes.not_blocked {now : Time} {t u : Tank K} (h : w.Passes now t u)
    (hu : (w.tick now).tank? t.id = some u) (hlive : u.isLive = true)
    (hbefore : ∀ b, (w.returned now).tank? t.id = some b → w.Returns now t b → b.isLive = true →
      w.blocked b.location = false) : w.blocked u.location = false := by
  obtain ⟨b, hb, hreturns, hsettles⟩ := h
  have hblive : b.isLive = true := b.isLive_step.symm.trans (hsettles.live hlive)
  obtain ⟨d, v, _, _, hv, hlocation⟩ := exists_tried hb hblive
  obtain rfl : v = u := Option.some.inj (hv.symm.trans hu)
  rw [hlocation]
  by_cases hwall : (w.boxes.any fun box => box.overlapsTank (w.around d.location)) = true
  · rw [if_pos hwall]
    exact hbefore b hb hreturns hblive
  · rw [if_neg hwall]
    exact Bool.eq_false_iff.mpr hwall

/-! ## 3. Where a tank was put -/

end World

/-- The place that the tank with an id comes back to in the operation, if it does. -/
def Moment.back? (id : UInt32) (m : Moment K) : Option (Vec K) :=
  match m.op with
  | .tick now =>
    if (m.world.tank? id).any (Tank.isDue m.world.respawnDelay now) then
      ((m.world.returned now).tank? id).map Tank.location
    else none
  | _ => none

/-- The places where the tank with an id was put since it was added, the latest first. -/
def spawns (id : UInt32) : List (Moment K) → List (Vec K)
  | [] => []
  | m :: past =>
    if m.adds id then [(m.world.source.place m.world.half).1]
    else (m.back? id).toList ++ spawns id past

namespace World

variable {start w : World K} {past : List (Moment K)} {id : UInt32} {op : Operation K}

/-- A tank that is added is put at a place that is drawn for it. -/
theorem location_of_adds {u : Tank K} (hu : (w.perform op).1.tank? id = some u)
    (hadds : Moment.adds id ⟨w, op⟩ = true) : u.location = (w.source.place w.half).1 := by
  cases op with
  | join key name =>
    have hboth : key = id ∧ (w.join key name).2 = true := by simpa [Moment.adds] using hadds
    obtain ⟨rfl, hadded⟩ := hboth
    change (w.join key name).1.tank? key = some u at hu
    rcases join_cases key name w with ⟨_, hsame⟩ | ⟨_, hnew⟩
    · rw [hsame] at hadded
      cases hadded
    · rw [hnew, tank?, Table.find?_put] at hu
      have hfresh := (if_pos rfl).symm.trans hu
      rw [← Option.some.inj hfresh]
      rfl
  | disconnect | command | fire | tick | purge | snapshot => cases hadds

/-- What is no tick moves no tank and brings none to life. -/
theorem Turns.same_place {t u : Tank K} (h : w.Turns op t u)
    (hop : Moment.tickAt? ⟨w, op⟩ = none) :
    u.location = t.location ∧ (u.isLive = true → t.isLive = true) := by
  have hpull : ∀ (trigger : Trigger) (now : Time) (v : Tank K),
      (v.pull w.fireCooldown trigger now).isLive = v.isLive ∧
        (v.pull w.fireCooldown trigger now).location = v.location := by
    intro trigger now v
    obtain ⟨_, _, hpulled⟩ := Tank.pull_eq w.fireCooldown trigger now v
    rw [hpulled]
    exact ⟨rfl, rfl⟩
  cases op with
  | join =>
    obtain rfl : u = t := h
    exact ⟨rfl, fun hlive => hlive⟩
  | disconnect key =>
    simp only [Turns] at h
    split at h
    · subst h
      exact ⟨rfl, fun hlive => absurd hlive (by simp [Tank.isLive, Tank.disconnect])⟩
    · subst h
      exact ⟨rfl, fun hlive => hlive⟩
  | command key c now =>
    simp only [Turns] at h
    split at h
    · subst h
      rw [(hpull _ _ _).1, Tank.heed_isLive]
      exact ⟨(hpull _ _ _).2.trans (Tank.heed_location c t), fun hlive => hlive⟩
    · subst h
      exact ⟨rfl, fun hlive => hlive⟩
  | fire key trigger now =>
    simp only [Turns] at h
    split at h
    · subst h
      exact ⟨(hpull _ _ _).2, fun hlive => (hpull _ _ _).1.symm.trans hlive⟩
    · subst h
      exact ⟨rfl, fun hlive => hlive⟩
  | tick => cases hop
  | purge | snapshot =>
    obtain rfl : u = { t with joined := false } := h
    exact ⟨rfl, fun hlive => hlive⟩

/-- **Clear places only.**  A live tank is clear of all walls if all places where it was put since
it was added are. -/
theorem Course.not_blocked (h : Course start past w) (hs : start.Sound)
    (hnobody : start.tanks = []) {t : Tank K} (ht : w.tank? id = some t) (hlive : t.isLive = true)
    (hspawns : ∀ place ∈ spawns id past, start.blocked place = false) :
    start.blocked t.location = false := by
  induction h generalizing t with
  | start =>
    unfold tank? at ht
    rw [hnobody] at ht
    cases ht
  | @perform past w op hcourse ih =>
    have hk : Keyed w.tanks := (hcourse.sound hs).keyed
    rcases tank?_perform hk ht with ⟨hadds, _⟩ | ⟨hadds, b, hb, hturns⟩
    · rw [location_of_adds ht hadds]
      exact hspawns _ (by simp [spawns, hadds])
    · simp only [spawns, hadds, Bool.false_eq_true, if_false, List.mem_append,
        Option.mem_toList] at hspawns
      have hbefore : b.isLive = true → start.blocked b.location = false := fun hblive =>
        ih hb hblive fun place hplace => hspawns place (Or.inr hplace)
      cases htick : Moment.tickAt? ⟨w, op⟩ with
      | none =>
        obtain ⟨hsame, hblive⟩ := hturns.same_place htick
        rw [hsame]
        exact hbefore (hblive hlive)
      | some now =>
        obtain rfl : op = .tick now := by
          cases op <;> simp_all [Moment.tickAt?]
        have hid : b.id = id := Table.ident_of_find? hb
        rw [← hcourse.blocked_eq] at hspawns hbefore ⊢
        refine Passes.not_blocked hturns (hid.symm ▸ ht) hlive fun c hc hreturns hclive => ?_
        rw [hid] at hc
        unfold Returns at hreturns
        by_cases hdue : b.isDue w.respawnDelay now = true
        · refine hspawns _ (Or.inl ?_)
          simp [Moment.back?, hb, hdue, hc]
        · rw [if_neg hdue] at hreturns
          subst hreturns
          exact hbefore hclive
  | shuffle hcourse hshuffle ih =>
    refine ih ?_ hlive hspawns
    unfold tank? at ht ⊢
    rwa [(hcourse.sound hs).keyed.find?_perm hshuffle.tanks] at ht

/-- **Walls hold.**  In every world that a course leads to, whatever its walls,

* in a tick, whatever it is told, each tank that is live when walls are looked at is left where it
  has moved to, around the edges, if it overlaps no wall there, and otherwise where it was before it
  moved, which is where it was before the tick unless it has come back in it;
* a live tank overlaps no wall if none of the places where it was put since it was added does. -/
theorem walls_hold {settings : Settings K} {source : Source}
    (h : Course (ofSettings settings source) past w) :
    (∀ now id m, (w.moved now).tank? id = some m → m.isLive = true →
      ∃ t b u, w.tank? id = some t ∧ w.Returns now t b ∧ (w.returned now).tank? id = some b ∧
        m.location = w.around (b.drive.ahead b.location) ∧ (w.tick now).tank? id = some u ∧
        (w.blocked u.location = false ∧ u.location = m.location ∨
          w.blocked m.location = true ∧ u.location = b.location)) ∧
    (∀ id t, w.tank? id = some t → t.isLive = true →
      (∀ place ∈ spawns id past, w.blocked place = false) → w.blocked t.location = false) := by
  constructor
  · intro now id m hm hlive
    obtain ⟨t, b, u, ht, hreturns, hb, haround, hu, hlocation⟩ := exists_clear_or_back hm hlive
    refine ⟨t, b, u, ht, hreturns, hb, haround, hu, ?_⟩
    by_cases hwall : w.blocked m.location = true
    · rw [if_pos hwall] at hlocation
      exact Or.inr ⟨hwall, hlocation⟩
    · rw [if_neg hwall] at hlocation
      exact Or.inl ⟨hlocation ▸ Bool.eq_false_iff.mpr hwall, hlocation⟩
  · intro id t ht hlive hspawns
    rw [h.blocked_eq] at hspawns ⊢
    exact h.not_blocked (sound_ofSettings settings source) (ofSettings_tanks settings source) ht
      hlive hspawns

/-- A world that a wall divides. -/
def yardSettings : Settings Float :=
  { universeSize := 400, maxPowerUps := 0, walls := [⟨⟨-26.0, -200.0⟩, ⟨-26.0, 200.0⟩⟩] }

/-- A tank that was put clear of the wall and told to drive into it is right in front of it. -/
def yard : World Float :=
  (ofSettings yardSettings (Source.ofSeed 0)).run
    [.join 1 "ada", .command 1 ⟨.left, .idle, Vec.up⟩ 0]

/-- The next step of the tank leads into the wall, so the tank stays in front of it. -/
theorem walls_hold_yard :
    ∃ past t m u, Course (ofSettings yardSettings (Source.ofSeed 0)) past yard ∧
      yard.tank? 1 = some t ∧ t.isLive = true ∧ (yard.moved 2).tank? 1 = some m ∧
      yard.blocked m.location = true ∧ (yard.tick 2).tank? 1 = some u ∧
      u.location = t.location ∧ yard.blocked t.location = false := by
  obtain ⟨past, hcourse, hclear, hstays, hstate⟩ : ∃ past,
      Course (ofSettings yardSettings (Source.ofSeed 0)) past yard ∧
        (∀ place ∈ spawns 1 past, yard.blocked place = false) ∧
        (yard.tank? 1).map (fun t => (t.isLive, t.isDue yard.respawnDelay 2)) = some (true, false) ∧
        ((yard.moved 2).tank? 1).map (fun m => (m.isLive, yard.blocked m.location))
          = some (true, true) :=
    ⟨_, course_run _ _, by decide +kernel⟩
  obtain ⟨t, ht, hflags⟩ := Option.map_eq_some_iff.mp hstays
  obtain ⟨m, hm, hmflags⟩ := Option.map_eq_some_iff.mp hstate
  simp only [Prod.mk.injEq] at hflags hmflags
  obtain ⟨hlive, hidle⟩ := hflags
  obtain ⟨hmlive, hwall⟩ := hmflags
  have hall := walls_hold hcourse
  obtain ⟨t', b, u, ht', hreturns, _, _, hu, hend⟩ := hall.1 2 1 m hm hmlive
  obtain rfl : t' = t := Option.some.inj (ht'.symm.trans ht)
  obtain rfl : b = t' := by
    unfold Returns at hreturns
    rw [hidle] at hreturns
    exact hreturns
  have hback : u.location = b.location := by
    rcases hend with ⟨hclearEnd, hmoved⟩ | ⟨_, hback⟩
    · rw [hmoved, hwall] at hclearEnd
      cases hclearEnd
    · exact hback
  exact ⟨past, b, m, u, hcourse, ht, hlive, hm, hwall, hu, hback, hall.2 1 b ht hlive hclear⟩

end World

end TankArena
