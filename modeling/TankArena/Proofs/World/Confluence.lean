import TankArena.Proofs.World.Meetings
import TankArena.Proofs.World.Order

/-!
# Ticks in any order

Nobody chooses the order in which a tick visits things.  Things that compete for something, for a
place, a tank, a power-up or a point, can bring this order to light.  A tick is `Independent` when
nothing does, and then it leads from the same things in any two orders to the same things
(`tick_in_any_order`).

Each stage of a tick keeps a shuffle: `Shuffle.moved`, `Shuffle.hitWalls`, `Shuffle.strikeTanks`,
`Shuffle.collectPowerUps`, `Shuffle.burnTanks`.  For the stages that visit things one after the
other this rests on what is known of meetings: what becomes of a thing is a function of it and of
the others, and none of these functions shows an order (the lemmas with `perm`).
-/

namespace TankArena

open Table (Keyed)

variable {K : Type}

/-! ## 1. What becomes of things does not show an order -/

/-- Points show no order, neither of the tanks nor of the deadly hits. -/
theorem Toll.award_perm {toll toll' : Toll K} (ht : toll.tanks.Perm toll'.tanks)
    (hs : toll.scorers.Perm toll'.scorers) : toll.award.Perm toll'.award := by
  simp only [Toll.award_eq, hs.count_eq]
  exact ht.map _

variable [Scalar K]

section Perm

variable {ts us : List (Tank K)} {ps qs : List (Projectile K)} {xs ys : List (PowerUp K)}
  {bs cs : List (Beam K)}

theorem Tank.aimed_perm (hp : ps.Perm qs) (t : Tank K) : t.aimed qs = t.aimed ps :=
  (hp.countP_eq _).symm

theorem Tank.batter_perm (now : Time) (hp : ps.Perm qs) :
    Tank.batter now qs = Tank.batter now ps := by
  funext t
  unfold Tank.batter
  rw [Tank.aimed_perm hp]

theorem Projectile.spend_perm (ht : ts.Perm us) :
    Projectile.spend us = Projectile.spend ts := by
  funext p
  unfold Projectile.spend
  rw [ht.any_eq]

theorem Volley.perm (h : Volley ts ps) (ht : ts.Perm us) (hp : ps.Perm qs) : Volley us qs where
  one_target := by
    intro p hmem
    rw [← ht.countP_eq]
    exact h.one_target p (hp.mem_iff.mpr hmem)
  no_excess := by
    intro t hmem
    rw [Tank.aimed_perm hp]
    exact h.no_excess t (ht.mem_iff.mpr hmem)
  one_owner := by
    intro t hmem hall p hpmem q hqmem
    rw [Tank.aimed_perm hp] at hall
    exact h.one_owner t (ht.mem_iff.mpr hmem) hall p (hp.mem_iff.mpr hpmem) q
      (hp.mem_iff.mpr hqmem)

/-- The point for a tank goes to the one owner of all that aim at it, whichever hits last. -/
theorem Volley.slayer?_perm (h : Volley ts ps) (hp : ps.Perm qs) {t : Tank K} (ht : t ∈ ts) :
    t.slayer? qs = t.slayer? ps := by
  unfold Tank.slayer?
  rw [Tank.aimed_perm hp]
  by_cases hall : t.aimed ps = t.hitPoints.toNat
  · rw [if_pos hall, if_pos hall]
    exact Table.find?_map_perm (h.one_owner t ht hall) hp
  · rw [if_neg hall, if_neg hall]

theorem Tank.load_perm (hx : xs.Perm ys) : Tank.load (K := K) ys = Tank.load xs := by
  funext t
  unfold Tank.load
  rw [hx.countP_eq]

theorem PowerUp.spend_perm (now : Time) (ht : ts.Perm us) :
    PowerUp.spend now us = PowerUp.spend now ts := by
  funext p
  unfold PowerUp.spend
  rw [ht.any_eq]

theorem Harvest.perm (h : Harvest ts xs) (ht : ts.Perm us) (hx : xs.Perm ys) : Harvest us ys := by
  intro p hp
  rw [← ht.countP_eq]
  exact h p (hx.mem_iff.mpr hp)

theorem Tank.scorch_perm (now : Time) (hb : bs.Perm cs) :
    Tank.scorch now cs = Tank.scorch now bs := by
  funext t
  unfold Tank.scorch
  rw [hb.any_eq]

/-- The point for a tank goes to the one owner of all that hit it, whichever is first. -/
theorem Blaze.burner?_perm (h : Blaze ts bs) (hb : bs.Perm cs) {t : Tank K} (ht : t ∈ ts) :
    t.burner? cs = t.burner? bs :=
  Table.find?_map_perm (h t ht) hb

end Perm

namespace World

/-! ## 2. Independent ticks -/

/-- A tick in which nothing competes: one tank and one power-up at the most are due to come back;
after the walls the projectiles do not compete for tanks; after the projectiles neither tanks
compete for power-ups nor beams for points. -/
structure Independent (now : Time) (w : World K) : Prop where
  one_tank_due : w.tanks.countP (Tank.isDue w.respawnDelay now) ≤ 1
  one_powerUp_due : w.powerUps.countP (PowerUp.isDue w.respawnDelay now) ≤ 1
  volley : Volley (w.walled now).tanks (w.walled now).projectiles
  harvest : Harvest (w.struck now).1.tanks (w.struck now).1.powerUps
  blaze : Blaze (w.struck now).1.tanks (w.struck now).1.beams

instance (now : Time) (w : World K) : Decidable (w.Independent now) :=
  decidable_of_iff
    (w.tanks.countP (Tank.isDue w.respawnDelay now) ≤ 1 ∧
      w.powerUps.countP (PowerUp.isDue w.respawnDelay now) ≤ 1 ∧
      Volley (w.walled now).tanks (w.walled now).projectiles ∧
      Harvest (w.struck now).1.tanks (w.struck now).1.powerUps ∧
      Blaze (w.struck now).1.tanks (w.struck now).1.beams)
    ⟨fun ⟨ht, hp, hv, hh, hb⟩ => ⟨ht, hp, hv, hh, hb⟩,
      fun h => ⟨h.one_tank_due, h.one_powerUp_due, h.volley, h.harvest, h.blaze⟩⟩

/-! ## 3. Before the collisions -/

variable {w w' : World K}

theorem Shuffle.half_eq (h : w.Shuffle w') : w'.half = w.half := by
  unfold half
  rw [h.size_eq]

theorem Shuffle.boxes_eq (h : w.Shuffle w') : w'.boxes = w.boxes := by
  unfold boxes
  rw [h.walls_eq]

/-- The source of places after the tanks that are due have come back. -/
def sourceAfterTanks (now : Time) (w : World K) : Source :=
  if w.tanks.any (Tank.isDue w.respawnDelay now) then (w.source.place w.half).2 else w.source

/-- **Coming back, thing by thing.** -/
theorem respawn_eq (now : Time) (ht : w.tanks.countP (Tank.isDue w.respawnDelay now) ≤ 1)
    (hp : w.powerUps.countP (PowerUp.isDue w.respawnDelay now) ≤ 1) :
    w.respawn now = { w with
      tanks := w.tanks.map fun t =>
        if t.isDue w.respawnDelay now then t.revive (w.source.place w.half).1 else t
      powerUps := w.powerUps.map fun p =>
        if p.isDue w.respawnDelay now then p.revive ((w.sourceAfterTanks now).place w.half).1 else p
      source :=
        if w.powerUps.any (PowerUp.isDue w.respawnDelay now) then
          ((w.sourceAfterTanks now).place w.half).2
        else w.sourceAfterTanks now } := by
  rw [respawn_deals, Table.visit_deal _ _ _ ht]
  dsimp only
  rw [Table.visit_deal _ _ _ hp]
  rfl

theorem Shuffle.respawn (h : w.Shuffle w') (now : Time)
    (ht : w.tanks.countP (Tank.isDue w.respawnDelay now) ≤ 1)
    (hp : w.powerUps.countP (PowerUp.isDue w.respawnDelay now) ≤ 1) :
    (w.respawn now).Shuffle (w'.respawn now) := by
  have ht' : w'.tanks.countP (Tank.isDue w'.respawnDelay now) ≤ 1 := by
    rw [h.respawnDelay_eq, ← h.tanks.countP_eq]
    exact ht
  have hp' : w'.powerUps.countP (PowerUp.isDue w'.respawnDelay now) ≤ 1 := by
    rw [h.respawnDelay_eq, ← h.powerUps.countP_eq]
    exact hp
  have hafter : w'.sourceAfterTanks now = w.sourceAfterTanks now := by
    unfold sourceAfterTanks
    rw [h.respawnDelay_eq, h.half_eq, h.source_eq, h.tanks.any_eq]
  rw [respawn_eq now ht hp, respawn_eq now ht' hp']
  simp only [h.respawnDelay_eq, h.half_eq, h.source_eq, hafter, ← h.powerUps.any_eq]
  exact { h with
    tanks := h.tanks.map _
    powerUps := h.powerUps.map _
    respawnDelay_eq := rfl
    source_eq := rfl }

theorem Shuffle.enforceBounds (h : w.Shuffle w') : w.enforceBounds.Shuffle w'.enforceBounds := by
  unfold World.enforceBounds
  rw [h.half_eq]
  exact { h with tanks := h.tanks.map _, projectiles := h.projectiles.map _ }

/-- **Moving keeps a shuffle** when one tank and one power-up at the most come back. -/
theorem Shuffle.moved (h : w.Shuffle w') (now : Time)
    (ht : w.tanks.countP (Tank.isDue w.respawnDelay now) ≤ 1)
    (hp : w.powerUps.countP (PowerUp.isDue w.respawnDelay now) ≤ 1) :
    (w.moved now).Shuffle (w'.moved now) := by
  have hswept : { w with ticks := w.ticks + 1 }.sweep.Shuffle
      { w' with ticks := w'.ticks + 1 }.sweep :=
    { h with ticks_eq := congrArg (· + 1) h.ticks_eq, projectiles := h.projectiles.filter _ }
  have hback := hswept.respawn now ht hp
  exact Shuffle.enforceBounds { hback with
    tanks := hback.tanks.map Tank.step
    projectiles := hback.projectiles.map Projectile.step
    beams := hback.beams.filter (Beam.isFresh now) }

/-- **Walls keep a shuffle.** -/
theorem Shuffle.hitWalls (h : w.Shuffle w') :
    w.reboundTanks.shatterProjectiles.Shuffle w'.reboundTanks.shatterProjectiles := by
  have hboxes : w'.reboundTanks.boxes = w.reboundTanks.boxes := h.boxes_eq
  unfold shatterProjectiles
  rw [hboxes]
  unfold reboundTanks
  rw [h.boxes_eq]
  exact { h with tanks := h.tanks.map _, projectiles := h.projectiles.map _ }

/-! ## 4. The collisions -/

/-- **Hits of a volley, thing by thing.** -/
theorem strikeTanks_eq (now : Time) (hk : Keyed w.tanks) (hv : Volley w.tanks w.projectiles) :
    (w.strikeTanks now).1 = { w with
      tanks := w.tanks.map (Tank.batter now w.projectiles)
      projectiles := w.projectiles.map (Projectile.spend w.tanks) } ∧
    (w.strikeTanks now).2.Perm (w.tanks.filterMap (Tank.slayer? w.projectiles)) := by
  obtain ⟨hprojectiles, htanks, hscorers⟩ := hv.visit_strike now hk []
  rw [← htanks, ← hprojectiles]
  exact ⟨rfl, hscorers⟩

/-- **Projectiles keep a shuffle** when they are a volley, and the deadly hits are the same. -/
theorem Shuffle.strikeTanks (h : w.Shuffle w') (now : Time) (hk : Keyed w.tanks)
    (hv : Volley w.tanks w.projectiles) :
    (w.strikeTanks now).1.Shuffle (w'.strikeTanks now).1 ∧
      (w.strikeTanks now).2.Perm (w'.strikeTanks now).2 := by
  obtain ⟨hstruck, hscorers⟩ := strikeTanks_eq now hk hv
  obtain ⟨hstruck', hscorers'⟩ :=
    strikeTanks_eq now (hk.perm h.tanks) (hv.perm h.tanks h.projectiles)
  rw [hstruck, hstruck', Tank.batter_perm now h.projectiles, Projectile.spend_perm h.tanks]
  refine ⟨{ h with tanks := h.tanks.map _, projectiles := h.projectiles.map _ }, ?_⟩
  have hslayers : w'.tanks.filterMap (Tank.slayer? w'.projectiles)
      = w'.tanks.filterMap (Tank.slayer? w.projectiles) :=
    List.filterMap_congr fun t ht => hv.slayer?_perm h.projectiles (h.tanks.mem_iff.mpr ht)
  rw [hslayers] at hscorers'
  exact hscorers.trans ((h.tanks.filterMap _).trans hscorers'.symm)

/-- **A harvest, thing by thing.** -/
theorem collectPowerUps_eq (now : Time) (hv : Harvest w.tanks w.powerUps) :
    w.collectPowerUps now = { w with
      tanks := w.tanks.map (Tank.load w.powerUps)
      powerUps := w.powerUps.map (PowerUp.spend now w.tanks) } := by
  unfold World.collectPowerUps
  rw [hv.visit_collect now]

/-- **Picking up keeps a shuffle** when it is a harvest. -/
theorem Shuffle.collectPowerUps (h : w.Shuffle w') (now : Time)
    (hv : Harvest w.tanks w.powerUps) :
    (w.collectPowerUps now).Shuffle (w'.collectPowerUps now) := by
  rw [collectPowerUps_eq now hv, collectPowerUps_eq now (hv.perm h.tanks h.powerUps),
    Tank.load_perm h.powerUps, PowerUp.spend_perm now h.tanks]
  exact { h with tanks := h.tanks.map _, powerUps := h.powerUps.map _ }

/-- **Beams keep a shuffle** when they do not compete for points. -/
theorem Shuffle.burnTanks (h : w.Shuffle w') (now : Time) (hb : Blaze w.tanks w.beams)
    {scorers scorers' : List UInt32} (hs : scorers.Perm scorers') :
    (w.burnTanks now scorers).Shuffle (w'.burnTanks now scorers') := by
  obtain ⟨htanks, hscorers⟩ := Toll.foldl_burn now w.beams ⟨w.tanks, scorers⟩
  obtain ⟨htanks', hscorers'⟩ := Toll.foldl_burn now w'.beams ⟨w'.tanks, scorers'⟩
  have hburners : w'.tanks.filterMap (Tank.burner? w'.beams)
      = w'.tanks.filterMap (Tank.burner? w.beams) :=
    List.filterMap_congr fun t ht => hb.burner?_perm h.beams (h.tanks.mem_iff.mpr ht)
  rw [Tank.scorch_perm now h.beams] at htanks'
  rw [hburners] at hscorers'
  refine { h with tanks := Toll.award_perm ?_ ?_ }
  · rw [htanks, htanks']
    exact h.tanks.map _
  · exact hscorers.trans ((hs.append (h.tanks.filterMap _)).trans hscorers'.symm)

/-! ## 5. The tick -/

/-- **An independent tick keeps a shuffle.** -/
theorem Shuffle.tick (h : w.Shuffle w') (now : Time) (hk : Keyed w.tanks)
    (hi : w.Independent now) : (w.tick now).Shuffle (w'.tick now) := by
  have hwalled := (h.moved now hi.one_tank_due hi.one_powerUp_due).hitWalls
  obtain ⟨hstruck, hscorers⟩ := hwalled.strikeTanks now ((changes_walled now w).keyed hk) hi.volley
  have hgathered := hstruck.collectPowerUps now hi.harvest
  -- Picking up leaves tanks where they are, so a beam hits those that it would have hit before.
  have hblaze : Blaze (w.gathered now).tanks (w.gathered now).beams := by
    intro u hu b hb c hc hbu hcu
    obtain ⟨t, ht, hfade⟩ := Table.exists_before_of_forall₂ (gathered_fade now w) hu
    have hbefore : ∀ x : Beam K, x.hits u = true → x.hits t = true := by
      intro x hx
      by_contra hmiss
      rw [hfade.not_hits_beam (Bool.eq_false_iff.mpr hmiss)] at hx
      exact Bool.false_ne_true hx
    exact hi.blaze t ht b hb c hc (hbefore b hbu) (hbefore c hcu)
  exact hgathered.burnTanks now hblaze hscorers

/-- **Independent ticks are confluent.**  From a world that can be reached, a tick in which nothing
competes leads in any two orders of visiting to worlds that differ in their order at the most: under
every id is the same tank, projectile, power-up and beam, and the source of random places is the
same. -/
theorem tick_in_any_order {settings : Settings K} {source : Source}
    (hw : Reachable settings source w) (h : w.Shuffle w') (now : Time) (hi : w.Independent now) :
    (w.tick now).Shuffle (w'.tick now) ∧
    (w'.tick now).source = (w.tick now).source ∧
    ∀ id, Table.find? id (w'.tick now).tanks = Table.find? id (w.tick now).tanks ∧
      Table.find? id (w'.tick now).projectiles = Table.find? id (w.tick now).projectiles ∧
      Table.find? id (w'.tick now).powerUps = Table.find? id (w.tick now).powerUps ∧
      Table.find? id (w'.tick now).beams = Table.find? id (w.tick now).beams := by
  have hticked : Reachable settings source (w.tick now) := hw.perform (.tick now)
  have hshuffle := h.tick now hw.sound.keyed hi
  exact ⟨hshuffle, hshuffle.source_eq, hshuffle.find?_eq hticked.sound hticked.indexed⟩

/-- The duel, visited from the other end. -/
def mirroredDuel : World Float :=
  { duel with tanks := duel.tanks.reverse, projectiles := duel.projectiles.reverse }

/-- Three projectiles that use up the hit points of a tank bring their owner a point in both
orders. -/
theorem tick_in_any_order_duel :
    Reachable duelSettings (Source.ofSeed 8) duel ∧ duel.Shuffle mirroredDuel ∧
      duel.Independent 4 ∧ ((mirroredDuel.tick 4).tank? 1).map Tank.score = some 1 := by
  have hshuffle : duel.Shuffle mirroredDuel :=
    ⟨(List.reverse_perm _).symm, (List.reverse_perm _).symm, List.Perm.refl _, List.Perm.refl _,
      rfl, rfl, rfl, rfl, rfl, rfl, rfl⟩
  obtain ⟨hindependent, hscore⟩ : duel.Independent 4 ∧
      ((duel.tick 4).tank? 1).map Tank.score = some 1 := by decide +kernel
  have hsame := ((tick_in_any_order reachable_duel hshuffle 4 hindependent).2.2 1).1
  exact ⟨reachable_duel, hshuffle, hindependent, (congrArg _ hsame).trans hscore⟩

end World

end TankArena
