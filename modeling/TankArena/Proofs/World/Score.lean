import TankArena.Proofs.World.Hits
import TankArena.Proofs.World.Order

/-!
# Each death scores once

A tick gives its points at the end, one for each entry of the list of scorers that the projectiles
and the beams have left.  This file counts that list twice.

* By the players who score, it shares out into the points of the tanks that are there; entries of
  players whose tanks are gone are left over (`totalScore_tick`).
* By the victims, it shares out into the deaths of the tick, one entry for each (`deaths_eq`).

So all points of a tick together are its deaths, or fewer if a scorer is gone.
-/

namespace TankArena.World

open Table (Keyed)

variable {K : Type} [Scalar K] {w : World K}

/-! ## 1. Points and deaths -/

/-- The points of all tanks together. -/
def totalScore (w : World K) : Nat := (w.tanks.map fun t => t.score.toNat).sum

/-- How many tanks are live when the collisions of a tick begin and dead when they end. -/
def deaths (now : Time) (w : World K) : Nat :=
  (w.moved now).tanks.countP fun t => t.isLive && ((w.tick now).tank? t.id).any Tank.died

/-- No score passes the limit of its word in a tick. -/
def HasRoom (now : Time) (w : World K) : Prop :=
  ∀ t ∈ w.tanks, t.score.toNat + w.points now t.id < 2 ^ 32

instance (now : Time) (w : World K) : Decidable (w.HasRoom now) :=
  inferInstanceAs (Decidable (∀ t ∈ w.tanks, _))

/-! ## 2. By the scorers -/

/-- A tank gains its points. -/
theorem toNat_score_of_ticked {now : Time} {t u : Tank K} (h : w.Ticked now t u)
    (hroom : t.score.toNat + w.points now t.id < 2 ^ 32) :
    u.score.toNat = t.score.toNat + w.points now t.id := by
  obtain ⟨v, hchanges, rfl⟩ := h
  have hscore : v.score = t.score := congrArg Tank.Badge.score (Tank.Changes.badge_eq hchanges)
  have hsmall : w.points now t.id < 2 ^ 32 := Nat.lt_of_le_of_lt (Nat.le_add_left _ _) hroom
  have hgain : (v.gain (w.points now t.id)).score = t.score + UInt32.ofNat (w.points now t.id) :=
    congrArg (· + UInt32.ofNat (w.points now t.id)) hscore
  rw [hgain, UInt32.toNat_add, UInt32.toNat_ofNat', Nat.mod_eq_of_lt hsmall, Nat.mod_eq_of_lt hroom]

/-- **All points of a tick** are the deadly hits of players whose tanks are there. -/
theorem totalScore_tick (hk : Keyed w.tanks) {now : Time} (hroom : w.HasRoom now) :
    (w.tick now).totalScore
      = w.totalScore + (w.toll now).scorers.countP fun id => Table.has id w.tanks := by
  have hscores : (w.tick now).tanks.map (fun u => u.score.toNat)
      = w.tanks.map fun t => t.score.toNat + w.points now t.id :=
    Table.map_eq_of_forall₂ (fun t ht u hu => toNat_score_of_ticked hu (hroom t ht))
      (tick_tanks now hk)
  unfold totalScore
  rw [hscores, List.sum_map_add]
  exact congrArg _ (Table.sum_count hk (w.toll now).scorers)

/-! ## 3. By the victims -/

/-- **All deaths of a tick** have one scorer each. -/
theorem deaths_eq (hw : w.Sound) (now : Time) : w.deaths now = (w.toll now).scorers.length := by
  obtain ⟨shots, rays, hhits⟩ := exists_tickHits hw.keyed now
  have hmoved : Keyed (w.moved now).tanks := (moved_tanks now w).keyed hw.keyed
  have hends : ∀ t ∈ (w.moved now).tanks,
      (t.isLive && ((w.tick now).tank? t.id).any Tank.died).toNat
        = Hit.deadlyOn t.id (shots ++ rays) := by
    intro t ht
    obtain ⟨u, hu, hendured⟩ := Table.exists_after_of_forall₂ (hhits.endured hw) ht
    have hfound : (w.tick now).tank? t.id = some u :=
      (Table.find?_eq_some_iff (tick_keyed now hw.keyed)).mpr ⟨hu, hendured.id_eq⟩
    rw [hfound, Option.any_some, hendured.deadlyOn_eq]
  have hvictims : ∀ id ∈ ((shots ++ rays).filter Hit.isDeadly).map fun h => h.victim.id,
      Table.has id (w.moved now).tanks = true := by
    intro id hid
    obtain ⟨x, hx, rfl⟩ := List.mem_map.mp hid
    rw [Table.has_of_forall₂ (fun _ _ hc => Tank.Changes.id_eq hc) (moved_tanks now w)]
    exact hhits.has_victim hw.keyed x (List.mem_of_mem_filter hx)
  have hcount : ∀ t : Tank K, Hit.deadlyOn t.id (shots ++ rays)
      = (((shots ++ rays).filter Hit.isDeadly).map fun h => h.victim.id).count
          (Identified.ident t) := fun t => Hit.deadlyOn_eq_count t.id _
  unfold deaths
  rw [← Table.sum_toNat_eq_countP, List.map_congr_left hends, hhits.scorers_eq,
    Hit.length_scorers]
  simp only [hcount]
  rw [Table.sum_count hmoved, List.countP_eq_length.mpr hvictims]

/-! ## 4. The points of a tick -/

/-- A scorer of a tick owns a projectile or a beam that takes part in the collisions. -/
theorem exists_owner_of_mem_scorers (hk : Keyed w.tanks) {now : Time} {id : UInt32}
    (hid : id ∈ (w.toll now).scorers) :
    (∃ p ∈ (w.moved now).projectiles, p.owner = id) ∨
      ∃ b ∈ (w.moved now).beams, b.owner = id := by
  obtain ⟨shots, rays, hhits⟩ := exists_tickHits hk now
  rw [hhits.scorers_eq] at hid
  obtain ⟨x, hx, rfl⟩ := List.mem_map.mp hid
  rcases List.mem_append.mp (List.mem_of_mem_filter hx) with hshot | hray
  · obtain ⟨p, hp, t, rfl⟩ := hhits.exists_projectile x hshot
    obtain ⟨q, hq, rfl⟩ := List.mem_map.mp hp
    exact Or.inl ⟨q, hq, rfl⟩
  · obtain ⟨b, hb, t, rfl⟩ := hhits.exists_beam x hray
    exact Or.inr ⟨b, hb, rfl⟩

/-- **Each death scores once.**  In a tick that no score is too small a word for,

* all tanks together gain a point for each death at the most;
* they gain exactly a point for each death if the owners of all projectiles and beams that take
  part have tanks, dead or not;
* there are hits, each of a projectile or a beam on a live tank of another player, that account
  for every hit point lost, every death and every point: a tank loses what the hits on it cost, it
  suffers one deadly hit if it dies and none otherwise, and it gains a point for each of its own
  deadly hits on others. -/
theorem each_death_scores_once {settings : Settings K} {source : Source}
    (hw : Reachable settings source w) (now : Time) (hroom : w.HasRoom now) :
    (w.tick now).totalScore ≤ w.totalScore + w.deaths now ∧
    ((∀ p ∈ (w.moved now).projectiles, Table.has p.owner w.tanks = true) →
      (∀ b ∈ (w.moved now).beams, Table.has b.owner w.tanks = true) →
      (w.tick now).totalScore = w.totalScore + w.deaths now) ∧
    ∃ shots rays, w.TickHits now shots rays ∧
      (∀ h ∈ shots ++ rays, h.victim.isLive = true ∧ h.shooter ≠ h.victim.id) ∧
      (∀ t ∈ (w.moved now).tanks, ∀ u ∈ (w.tick now).tanks, u.id = t.id →
        u.hitPoints.toNat + Hit.lost t.id (shots ++ rays) = t.hitPoints.toNat ∧
        Hit.deadlyOn t.id (shots ++ rays) = (t.isLive && u.died).toNat) ∧
      (∀ t ∈ w.tanks, ∀ u ∈ (w.tick now).tanks, u.id = t.id →
        u.score.toNat = t.score.toNat + (Hit.scorers (shots ++ rays)).count t.id) := by
  have hsound := hw.sound
  have hk := hsound.keyed
  refine ⟨?_, ?_, ?_⟩
  · rw [totalScore_tick hk hroom, deaths_eq hsound]
    exact Nat.add_le_add_left List.countP_le_length _
  · intro hprojectiles hbeams
    have hall : ∀ id ∈ (w.toll now).scorers, Table.has id w.tanks = true := by
      intro id hid
      rcases exists_owner_of_mem_scorers hk hid with ⟨p, hp, rfl⟩ | ⟨b, hb, rfl⟩
      · exact hprojectiles p hp
      · exact hbeams b hb
    rw [totalScore_tick hk hroom, deaths_eq hsound, List.countP_eq_length.mpr hall]
  · obtain ⟨shots, rays, hhits⟩ := exists_tickHits hk now
    refine ⟨shots, rays, hhits, ?_, ?_, ?_⟩
    · exact fun h hh => ⟨Hit.isLive_of_lands (hhits.lands h hh), Hit.shooter_ne (hhits.lands h hh)⟩
    · intro t ht u hu hid
      have hendured := Table.of_forall₂ (tick_keyed now hk) (fun _ _ he => Tank.Endured.id_eq he)
        (hhits.endured hsound) ht hu hid
      exact ⟨hendured.hitPoints, hendured.deadlyOn_eq⟩
    · intro t ht u hu hid
      have hticked := Table.of_forall₂ (tick_keyed now hk) (fun _ _ ht => Ticked.id_eq ht)
        (tick_tanks now hk) ht hu hid
      rw [toNat_score_of_ticked hticked (hroom t ht), ← hhits.scorers_eq]
      rfl

/-- Three hits in one tick are one death and one point. -/
theorem each_death_scores_once_duel :
    Reachable duelSettings (Source.ofSeed 8) duel ∧ duel.HasRoom 4 ∧ duel.deaths 4 = 1 ∧
      (duel.tick 4).totalScore = duel.totalScore + 1 := by
  obtain ⟨hroom, hprojectiles, hbeams, hdeath⟩ : duel.HasRoom 4 ∧
      (∀ p ∈ (duel.moved 4).projectiles, Table.has p.owner duel.tanks = true) ∧
      (∀ b ∈ (duel.moved 4).beams, Table.has b.owner duel.tanks = true) ∧
      duel.deaths 4 = 1 := by decide +kernel
  have hall := (each_death_scores_once reachable_duel 4 hroom).2.1 hprojectiles hbeams
  rw [hdeath] at hall
  exact ⟨reachable_duel, hroom, hdeath, hall⟩

end TankArena.World
