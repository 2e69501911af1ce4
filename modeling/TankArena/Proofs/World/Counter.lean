import TankArena.Proofs.World.Ids

/-!
# Ids in use

Power-ups, projectiles and beams share one counter of 32-bit words.  It leaves out zero and comes
round after its greatest value, and nobody asks whether the id that it stands at is in use.

* Along every course the counter stands where the number of ids that were handed out puts it
  (`Course.nextObject_toNat`), and no id is zero (`Course.zero_not_mem_objectIds`).
* Until it has come round, the ids in use are all different (`Course.objectIds_nodup`).
* Power-ups keep the first ids for as long as the world lasts (`Course.powerUps_ids`), so as soon as
  the counter comes round, a shot gets the id of a power-up (`Course.objectIds_laws`).

`crowded` is a world in which this is so from the first shot on.
-/

namespace TankArena

open Identified (ident)

variable {K : Type}

namespace World

/-! ## 1. Ids in use -/

/-- The ids of all things that take theirs from the counter. -/
def objectIds (w : World K) : List UInt32 :=
  w.powerUps.map PowerUp.id ++ (w.projectiles.map Projectile.id ++ w.beams.map Beam.id)

/-- The counter after an id, in numbers: the remainder counts the ids since it came round. -/
theorem idAfter_toNat_mod (id : UInt32) :
    (idAfter id).toNat = id.toNat % (UInt32.size - 1) + 1 := by
  have hbound : id.toNat < UInt32.size := id.toNat_lt
  by_cases hlast : id.toNat + 1 < UInt32.size
  · rw [idAfter_toNat id hlast, Nat.mod_eq_of_lt (Nat.lt_sub_of_add_lt hlast)]
  · have heq : id.toNat = UInt32.size - 1 := by omega
    have hzero : id + 1 = 0 := by
      apply UInt32.toNat_inj.mp
      rw [UInt32.toNat_add, heq]
      rfl
    rw [idAfter, if_pos hzero, heq, Nat.mod_self]
    rfl

variable {w : World K}

/-- Objects that go, and objects in another order. -/
theorem objectIds_sublist {v : World K} (hpowerUps : v.powerUps.map PowerUp.id
      = w.powerUps.map PowerUp.id)
    (hprojectiles : (v.projectiles.map Projectile.id).Sublist (w.projectiles.map Projectile.id))
    (hbeams : (v.beams.map Beam.id).Sublist (w.beams.map Beam.id)) :
    v.objectIds.Sublist w.objectIds := by
  unfold objectIds
  rw [hpowerUps]
  exact (List.Sublist.refl _).append (hprojectiles.append hbeams)

theorem objectIds_perm {v : World K} (hs : w.Shuffle v) : w.objectIds.Perm v.objectIds :=
  (hs.powerUps.map _).append ((hs.projectiles.map _).append (hs.beams.map _))

/-- **A shot** puts the next id into use. -/
theorem release_objectIds_subset (s : Shot K) (w : World K) :
    (w.release s).objectIds ⊆ w.nextObject :: w.objectIds := by
  intro id hid
  simp only [objectIds, List.mem_append, List.mem_map, List.mem_cons] at hid ⊢
  rcases hid with hpowerUp | ⟨p, hp, rfl⟩ | ⟨b, hb, rfl⟩
  · exact Or.inr (Or.inl hpowerUp)
  · cases s with
    | projectile location direction owner =>
      rcases Table.mem_put.mp hp with ⟨hold, _⟩ | rfl
      · exact Or.inr (Or.inr (Or.inl ⟨p, hold, rfl⟩))
      · exact Or.inl rfl
    | beam => exact Or.inr (Or.inr (Or.inl ⟨p, hp, rfl⟩))
  · cases s with
    | projectile => exact Or.inr (Or.inr (Or.inr ⟨b, hb, rfl⟩))
    | beam origin direction owner createdAt =>
      rcases Table.mem_put.mp hb with ⟨hold, _⟩ | rfl
      · exact Or.inr (Or.inr (Or.inr ⟨b, hold, rfl⟩))
      · exact Or.inl rfl

/-- **A shot under a free id** leaves everything else in place. -/
theorem release_objectIds_perm (s : Shot K) (hfree : w.nextObject ∉ w.objectIds) :
    (w.release s).objectIds.Perm (w.nextObject :: w.objectIds) := by
  simp only [objectIds, List.mem_append, not_or] at hfree
  obtain ⟨_, hprojectiles, hbeams⟩ := hfree
  cases s with
  | projectile location direction owner =>
    have hput : ((w.release (.projectile location direction owner)).projectiles).map Projectile.id
        = w.projectiles.map Projectile.id ++ [w.nextObject] := by
      refine (congrArg _ (Table.put_of_new fun p hp hid => ?_)).trans List.map_append
      exact hprojectiles (List.mem_map.mpr ⟨p, hp, hid⟩)
    unfold objectIds
    rw [hput, List.append_assoc, List.singleton_append]
    exact (List.perm_middle.append_left _).trans List.perm_middle
  | beam origin direction owner createdAt =>
    have hput : ((w.release (.beam origin direction owner createdAt)).beams).map Beam.id
        = w.beams.map Beam.id ++ [w.nextObject] := by
      refine (congrArg _ (Table.put_of_new fun b hb hid => ?_)).trans List.map_append
      exact hbeams (List.mem_map.mpr ⟨b, hb, hid⟩)
    unfold objectIds
    rw [hput, ← List.append_assoc, ← List.append_assoc]
    exact (List.perm_append_singleton _ _).trans (List.append_assoc .. ▸ List.Perm.refl _)

variable [Scalar K]

/-! ## 2. One operation -/

/-- **An operation that fires nothing** leaves the counter alone and puts no id into use. -/
theorem perform_of_no_shot {op : Operation K} (h : (w.perform op).2.shot? = none) :
    (w.perform op).1.nextObject = w.nextObject ∧
      (w.perform op).1.objectIds.Sublist w.objectIds := by
  rcases perform_cases w op with ⟨now, rfl⟩ | ⟨_, _, hworld, _⟩ | ⟨_, _, _, hshot⟩
  · exact ⟨rfl, objectIds_sublist (perform_powerUps w (.tick now))
      (tick_projectiles_sublist now w) (List.filter_sublist.map _)⟩
  · rw [hworld]
    exact ⟨rfl, List.Sublist.refl _⟩
  · rw [h] at hshot
    cases hshot

/-- **An operation that fires** gives the shot the id that the counter stands at. -/
theorem perform_of_shot {op : Operation K} {id : UInt32} (h : (w.perform op).2.shot? = some id) :
    id = w.nextObject ∧ ∃ (v : World K) (s : Shot K), v.objectIds = w.objectIds ∧
      v.nextObject = w.nextObject ∧ (w.perform op).1 = v.release s := by
  rcases perform_cases w op with ⟨now, rfl⟩ | ⟨_, _, _, hshot⟩ | ⟨tanks, s, hworld, hshot⟩
  · cases h
  · rw [h] at hshot
    cases hshot
  · rw [h] at hshot
    exact ⟨Option.some.inj hshot, { w with tanks := tanks }, s, rfl, rfl, hworld⟩

/-! ## 3. Courses -/

section Course

variable {settings : Settings K} {source : Source} {past : List (Moment K)}

/-- How many ids were handed out: one for each power-up at the beginning, and then one for each
shot. -/
def idsGiven (settings : Settings K) (past : List (Moment K)) : Nat :=
  settings.maxPowerUps + shotsFired past

theorem nextObject_addPowerUps {n k : Nat} (h : w.nextObject.toNat = n % (UInt32.size - 1) + 1) :
    (w.addPowerUps k).nextObject.toNat = (n + k) % (UInt32.size - 1) + 1 := by
  induction k generalizing n w with
  | zero => exact h
  | succ k ih =>
    have hone : w.addPowerUp.nextObject.toNat = (n + 1) % (UInt32.size - 1) + 1 := by
      change (idAfter w.nextObject).toNat = _
      rw [idAfter_toNat_mod, h, Nat.mod_add_mod]
    have hrest := ih hone
    rwa [Nat.add_right_comm, Nat.add_assoc] at hrest

/-- **Where the counter stands**: it comes round after as many ids as there are words but zero. -/
theorem Course.nextObject_toNat (h : Course (ofSettings settings source) past w) :
    w.nextObject.toNat = idsGiven settings past % (UInt32.size - 1) + 1 := by
  induction h with
  | start =>
    have hempty : (empty settings source).nextObject.toNat = 0 % (UInt32.size - 1) + 1 := rfl
    have hall := nextObject_addPowerUps (k := settings.maxPowerUps) hempty
    rwa [Nat.zero_add] at hall
  | @perform past w op _ ih =>
    unfold idsGiven at ih ⊢
    rw [shotsFired_cons, ← Nat.add_assoc]
    unfold Moment.outcome
    cases hshot : (w.perform op).2.shot? with
    | none =>
      rw [(perform_of_no_shot hshot).1]
      exact ih
    | some id =>
      obtain ⟨_, v, s, _, hnext, hperform⟩ := perform_of_shot hshot
      have hafter : (v.release s).nextObject = idAfter w.nextObject := hnext ▸ rfl
      rw [hperform, hafter, idAfter_toNat_mod, ih, Nat.mod_add_mod]
      rfl
  | shuffle _ hshuffle ih =>
    rw [hshuffle.nextObject_eq]
    exact ih

theorem Course.nextObject_ne_zero (h : Course (ofSettings settings source) past w) :
    w.nextObject ≠ 0 := by
  intro hzero
  have hnext := h.nextObject_toNat
  rw [hzero] at hnext
  exact absurd hnext.symm (Nat.succ_ne_zero _)

/-- What holds of all ids that can be handed out holds of the ids of all power-ups. -/
theorem powerUps_of_addPowerUps {P : UInt32 → Prop} (hafter : ∀ id, P (idAfter id)) (k : Nat)
    (hw : ∀ id ∈ w.powerUps.map PowerUp.id, P id) (hnext : P w.nextObject) :
    ∀ id ∈ (w.addPowerUps k).powerUps.map PowerUp.id, P id := by
  induction k generalizing w with
  | zero => exact hw
  | succ k ih =>
    refine ih ?_ (hafter w.nextObject)
    intro id hid
    obtain ⟨p, hp, rfl⟩ := List.mem_map.mp hid
    rcases Table.mem_put.mp hp with ⟨hold, _⟩ | rfl
    · exact hw p.id (List.mem_map_of_mem hold)
    · exact hnext

/-- As long as the counter has not come round, power-ups get one id after the other. -/
theorem addPowerUps_ids {n k : Nat} (hroom : n + k < UInt32.size)
    (hnext : w.nextObject.toNat = n % (UInt32.size - 1) + 1)
    (hw : w.powerUps.map (fun p => p.id.toNat) = List.range' 1 n) :
    (w.addPowerUps k).powerUps.map (fun p => p.id.toNat) = List.range' 1 (n + k) := by
  induction k generalizing n w with
  | zero => exact hw
  | succ k ih =>
    have hid : w.nextObject.toNat = n + 1 := by
      rw [hnext, Nat.mod_eq_of_lt (by omega)]
    have hnew : ∀ p ∈ w.powerUps, ident p ≠ w.nextObject := by
      intro p hp hsame
      have hmem : p.id.toNat ∈ List.range' 1 n := hw ▸ List.mem_map_of_mem hp
      have hlow := (List.mem_range'_1.mp hmem).2
      have htoNat : p.id.toNat = w.nextObject.toNat := congrArg UInt32.toNat hsame
      omega
    have hput : w.addPowerUp.powerUps.map (fun p => p.id.toNat) = List.range' 1 (n + 1) := by
      refine (congrArg _ (Table.put_of_new (x := PowerUp.fresh w.nextObject _) hnew)).trans ?_
      rw [List.map_append, hw, List.range'_concat, List.map_singleton, PowerUp.fresh, hid]
      simp [Nat.add_comm]
    have hone : w.addPowerUp.nextObject.toNat = (n + 1) % (UInt32.size - 1) + 1 :=
      nextObject_addPowerUps (k := 1) hnext
    have hrest := ih (by omega) hone hput
    rwa [Nat.add_right_comm, Nat.add_assoc] at hrest

/-- At the beginning only power-ups have ids. -/
theorem objectIds_ofSettings (settings : Settings K) (source : Source) :
    (ofSettings settings source).objectIds
      = (ofSettings settings source).powerUps.map PowerUp.id := by
  have hbare : ∀ (k : Nat) (v : World K), (v.addPowerUps k).projectiles = v.projectiles ∧
      (v.addPowerUps k).beams = v.beams := by
    intro k
    induction k with
    | zero => exact fun v => ⟨rfl, rfl⟩
    | succ k ih => exact fun v => ih v.addPowerUp
  obtain ⟨hprojectiles, hbeams⟩ := hbare settings.maxPowerUps (empty settings source)
  have hnoProjectiles : (ofSettings settings source).projectiles = [] := hprojectiles
  have hnoBeams : (ofSettings settings source).beams = [] := hbeams
  simp [objectIds, hnoProjectiles, hnoBeams]

/-- **No id is zero**, whether the counter has come round or not. -/
theorem Course.zero_not_mem_objectIds (h : Course (ofSettings settings source) past w) :
    0 ∉ w.objectIds := by
  induction h with
  | start =>
    have hafter : ∀ id, idAfter id ≠ 0 := by
      intro id hzero
      have htoNat := idAfter_toNat_mod id
      rw [hzero] at htoNat
      exact absurd htoNat.symm (Nat.succ_ne_zero _)
    rw [objectIds_ofSettings]
    intro hzero
    have hfirst : (empty settings source).nextObject ≠ 0 := UInt32.zero_ne_one.symm
    have hnever := powerUps_of_addPowerUps (P := (· ≠ 0)) hafter settings.maxPowerUps
      (fun id hid => absurd hid List.not_mem_nil) hfirst
    exact hnever 0 hzero rfl
  | @perform past w op hcourse ih =>
    cases hshot : (w.perform op).2.shot? with
    | none =>
      intro hzero
      exact ih ((perform_of_no_shot hshot).2.subset hzero)
    | some id =>
      obtain ⟨_, v, s, hids, hnext, hperform⟩ := perform_of_shot hshot
      intro hzero
      rw [hperform] at hzero
      rcases List.mem_cons.mp (release_objectIds_subset s v hzero) with hfirst | hrest
      · exact hcourse.nextObject_ne_zero (hnext ▸ hfirst.symm)
      · exact ih (hids ▸ hrest)
  | shuffle _ hshuffle ih =>
    intro hzero
    exact ih ((objectIds_perm hshuffle).mem_iff.mpr hzero)

/-- The power-ups have the first ids, unless there are more of them than ids. -/
theorem Course.powerUps_ids (h : Course (ofSettings settings source) past w)
    (hroom : settings.maxPowerUps < UInt32.size) :
    (w.powerUps.map fun p => p.id.toNat).Perm (List.range' 1 settings.maxPowerUps) := by
  induction h with
  | start =>
    have hall := addPowerUps_ids (w := empty settings source) (n := 0) (k := settings.maxPowerUps)
      (by omega) rfl rfl
    rw [Nat.zero_add] at hall
    exact List.Perm.of_eq hall
  | @perform past w op _ ih =>
    have hids := congrArg (List.map UInt32.toNat) (perform_powerUps w op)
    rw [List.map_map, List.map_map] at hids
    exact (List.Perm.of_eq hids).trans ih
  | shuffle _ hshuffle ih => exact (hshuffle.powerUps.map _).symm.trans ih

/-- **The ids in use are all different** until the counter has come round, and are among those that
were handed out. -/
theorem Course.objectIds_nodup (h : Course (ofSettings settings source) past w)
    (hroom : idsGiven settings past < UInt32.size) :
    w.objectIds.Nodup ∧ ∀ id ∈ w.objectIds, id.toNat ≤ idsGiven settings past := by
  induction h with
  | start =>
    have hstart : Course (ofSettings settings source) [] (ofSettings settings source) :=
      Course.start
    have hids := hstart.powerUps_ids (Nat.lt_of_le_of_lt (Nat.le_add_right _ _) hroom)
    rw [objectIds_ofSettings]
    constructor
    · refine List.Nodup.of_map UInt32.toNat ?_
      rw [List.map_map]
      exact hids.nodup_iff.mpr List.nodup_range'
    · intro id hid
      obtain ⟨p, hp, rfl⟩ := List.mem_map.mp hid
      have hrange := List.mem_range'_1.mp (hids.mem_iff.mp (List.mem_map_of_mem hp))
      unfold idsGiven
      omega
  | @perform past w op hcourse ih =>
    unfold idsGiven at ih hroom ⊢
    rw [shotsFired_cons, ← Nat.add_assoc] at hroom ⊢
    obtain ⟨hnodup, hle⟩ := ih (by omega)
    unfold Moment.outcome at hroom ⊢
    cases hshot : (w.perform op).2.shot? with
    | none =>
      have hsub := (perform_of_no_shot hshot).2
      exact ⟨hnodup.sublist hsub, fun id hid => hle id (hsub.subset hid)⟩
    | some id =>
      rw [hshot] at hroom
      change settings.maxPowerUps + shotsFired past + 1 < UInt32.size at hroom
      change _ ∧ ∀ id ∈ (w.perform op).1.objectIds,
        id.toNat ≤ settings.maxPowerUps + shotsFired past + 1
      have hnextId : w.nextObject.toNat = settings.maxPowerUps + shotsFired past + 1 := by
        rw [hcourse.nextObject_toNat, idsGiven, Nat.mod_eq_of_lt (by omega)]
      have hfree : w.nextObject ∉ w.objectIds := by
        intro hmem
        have hused := hle _ hmem
        omega
      obtain ⟨_, v, s, hids, hnext, hperform⟩ := perform_of_shot hshot
      rw [← hids, ← hnext] at hfree
      have hperm := release_objectIds_perm s hfree
      rw [hids, hnext] at hperm hfree
      rw [hperform]
      constructor
      · exact hperm.nodup_iff.mpr (List.nodup_cons.mpr ⟨hfree, hnodup⟩)
      · intro id hid
        rcases List.mem_cons.mp (hperm.mem_iff.mp hid) with rfl | hold
        · exact Nat.le_of_eq hnextId
        · exact Nat.le_succ_of_le (hle id hold)
  | shuffle _ hshuffle ih =>
    obtain ⟨hnodup, hle⟩ := ih hroom
    have hperm := objectIds_perm hshuffle
    exact ⟨hperm.nodup_iff.mp hnodup, fun id hid => hle id (hperm.mem_iff.mpr hid)⟩

/-- Which shots get the id of a power-up. -/
theorem Course.nextObject_mem_powerUps_iff (h : Course (ofSettings settings source) past w)
    (hroom : settings.maxPowerUps < UInt32.size) :
    w.nextObject ∈ w.powerUps.map PowerUp.id ↔
      idsGiven settings past % (UInt32.size - 1) < settings.maxPowerUps := by
  have hnext := h.nextObject_toNat
  have hids := h.powerUps_ids hroom
  constructor
  · intro hmem
    obtain ⟨p, hp, hid⟩ := List.mem_map.mp hmem
    have hrange := List.mem_range'_1.mp (hids.mem_iff.mp (List.mem_map_of_mem hp))
    rw [hid] at hrange
    omega
  · intro hlow
    have hrange : w.nextObject.toNat ∈ List.range' 1 settings.maxPowerUps :=
      List.mem_range'_1.mpr (by omega)
    obtain ⟨p, hp, hid⟩ := List.mem_map.mp (hids.mem_iff.mpr hrange)
    exact List.mem_map.mpr ⟨p, hp, UInt32.toNat_inj.mp hid⟩

/-- **The ids of a course.**  None is ever zero, and no two things of one kind share one.  The ids
of all kinds are different from each other until the counter has come round.  A shot gets the id
that the counter stands at: it is free until the counter comes round, and then everything that was
there stays; it is the id of a power-up each time that the counter stands among the first ids. -/
theorem Course.objectIds_laws (h : Course (ofSettings settings source) past w) :
    0 ∉ w.objectIds ∧ w.Indexed ∧
      (idsGiven settings past < UInt32.size → w.objectIds.Nodup) ∧
      ∀ op id, (w.perform op).2.shot? = some id →
        id.toNat = idsGiven settings past % (UInt32.size - 1) + 1 ∧
        (idsGiven settings past + 1 < UInt32.size →
          id ∉ w.objectIds ∧ (w.perform op).1.objectIds.Perm (id :: w.objectIds)) ∧
        (settings.maxPowerUps < UInt32.size →
          (id ∈ w.powerUps.map PowerUp.id ↔
            idsGiven settings past % (UInt32.size - 1) < settings.maxPowerUps)) := by
  refine ⟨h.zero_not_mem_objectIds, h.indexed (indexed_ofSettings settings source),
    fun hroom => (h.objectIds_nodup hroom).1, ?_⟩
  intro op id hshot
  obtain ⟨rfl, v, s, hids, hnext, hperform⟩ :=
    perform_of_shot hshot
  have hnextId := h.nextObject_toNat
  refine ⟨hnextId, ?_, h.nextObject_mem_powerUps_iff⟩
  intro hroom
  have hfree : w.nextObject ∉ w.objectIds := by
    intro hmem
    have hused := (h.objectIds_nodup (by omega)).2 _ hmem
    rw [hnextId, Nat.mod_eq_of_lt (by omega)] at hused
    omega
  have hperm : (v.release s).objectIds.Perm (v.nextObject :: v.objectIds) :=
    release_objectIds_perm s (by rwa [hids, hnext])
  rw [hids, hnext, ← hperform] at hperm
  exact ⟨hfree, hperm⟩

/-- With one power-up and one shot on its way the next shot gets the third id, which is free. -/
theorem objectIds_laws_single :
    let start : World Float := ofSettings { duelSettings with maxPowerUps := 1 } (Source.ofSeed 8)
    let w := start.run [.join 1 "ada", .fire 1 .main 1]
    ∃ past, Course start past w ∧ w.objectIds = [1, 2] ∧ w.objectIds.Nodup ∧
      (w.perform (.fire 1 .main 2)).2.shot? = some 3 ∧
      3 ∉ w.objectIds ∧ (w.perform (.fire 1 .main 2)).1.objectIds.Perm [3, 1, 2] := by
  intro start w
  obtain ⟨past, hcourse, hgiven, hids, hshot⟩ : ∃ past, Course start past w ∧
      idsGiven { duelSettings with maxPowerUps := 1 } past = 2 ∧ w.objectIds = [1, 2] ∧
      (w.perform (.fire 1 .main 2)).2.shot? = some 3 :=
    ⟨_, course_run start _, by decide +kernel⟩
  obtain ⟨_, _, hnodup, hfired⟩ := hcourse.objectIds_laws
  rw [hgiven] at hnodup hfired
  obtain ⟨_, hfree, _⟩ := hfired _ 3 hshot
  obtain ⟨hnew, hperm⟩ := hfree (by decide)
  exact ⟨past, hcourse, hids, hnodup (by decide), hshot, hnew, hids ▸ hperm⟩

end Course

/-! ## 4. A counter that has come round -/

/-- A tank that has just come in can fire at once. -/
theorem shot?_of_newcomer (hnobody : w.tanks = []) (id : UInt32) (name : String) (now : Time) :
    ((w.join id name).1.perform (.fire id .main now)).2.shot? = some w.nextObject := by
  rcases join_cases id name w with ⟨hused, _⟩ | ⟨_, hjoin⟩
  · rw [hnobody] at hused
    cases hused
  · have htank : (w.join id name).1.tank? id
        = some (Tank.fresh id (Text.trim name) (w.source.place w.half).1) := by
      rw [hjoin, tank?, Table.find?_put]
      exact if_pos rfl
    have hfire : ((w.join id name).1.fire id .main now).2 = some (w.join id name).1.nextObject := by
      unfold fire
      rw [htank]
      rfl
    have hnext : (w.join id name).1.nextObject = w.nextObject := by rw [hjoin]
    exact hfire.trans (congrArg some hnext)

/-- A shot under the id of a power-up leaves both with this id. -/
theorem not_nodup_of_shared {op : Operation K} {id : UInt32}
    (hshot : (w.perform op).2.shot? = some id) (hshared : id ∈ w.powerUps.map PowerUp.id) :
    ¬ (w.perform op).1.objectIds.Nodup := by
  obtain ⟨rfl, v, s, _, hnext, hperform⟩ := perform_of_shot hshot
  have hshots : w.nextObject ∈ (w.perform op).1.projectiles.map Projectile.id
      ++ (w.perform op).1.beams.map Beam.id := by
    rw [hperform, ← hnext]
    cases s with
    | projectile =>
      exact List.mem_append_left _ (List.mem_map.mpr ⟨_, Table.mem_put_self _ _, rfl⟩)
    | beam => exact List.mem_append_right _ (List.mem_map.mpr ⟨_, Table.mem_put_self _ _, rfl⟩)
  intro hnodup
  unfold objectIds at hnodup
  rw [perform_powerUps] at hnodup
  exact (List.disjoint_of_nodup_append hnodup) hshared hshots

/-- Settings with as many power-ups as there are ids give the first shot the id of a power-up. -/
theorem shot_of_full_settings {settings : Settings K} (source : Source)
    (hfull : settings.maxPowerUps = UInt32.size - 1) (id : UInt32) (name : String) (now : Time) :
    let w := (ofSettings settings source).run [.join id name]
    1 ∈ w.powerUps.map PowerUp.id ∧ (w.perform (.fire id .main now)).2.shot? = some 1 ∧
      ¬ (w.perform (.fire id .main now)).1.objectIds.Nodup := by
  intro w
  have hcourse : Course (ofSettings settings source) [] (ofSettings settings source) := Course.start
  have hgiven : idsGiven settings ([] : List (Moment K)) = UInt32.size - 1 := hfull
  have hnext : (ofSettings settings source).nextObject = 1 := by
    apply UInt32.toNat_inj.mp
    rw [hcourse.nextObject_toNat, hgiven, Nat.mod_self]
    rfl
  have hshot : (w.perform (.fire id .main now)).2.shot? = some 1 :=
    (shot?_of_newcomer (ofSettings_tanks settings source) id name now).trans (congrArg some hnext)
  have hroom : settings.maxPowerUps < UInt32.size := hfull ▸ by decide
  have hshared : 1 ∈ w.powerUps.map PowerUp.id := by
    have hmem := (hcourse.nextObject_mem_powerUps_iff hroom).mpr (by
      rw [hgiven, hfull, Nat.mod_self]
      decide)
    rw [hnext] at hmem
    have hjoined : w.powerUps.map PowerUp.id
        = (ofSettings settings source).powerUps.map PowerUp.id :=
      perform_powerUps _ (.join id name)
    rwa [hjoined]
  exact ⟨hshared, hshot, not_nodup_of_shared hshot hshared⟩

/-- As many power-ups as there are ids. -/
def crowdedSettings : Settings Float := { maxPowerUps := 4294967295 }

/-- The world of these settings with one tank. -/
def crowded : World Float := (ofSettings crowdedSettings (Source.ofSeed 1)).run [.join 1 "ada"]

/-- **The counter gives out an id that is in use.**  The settings are accepted, and the first shot
gets the id of a power-up. -/
theorem crowded_shot_shares_id :
    crowdedSettings.fault?.isNone = true ∧ 1 ∈ crowded.powerUps.map PowerUp.id ∧
      (crowded.perform (.fire 1 .main 0)).2.shot? = some 1 ∧
      ¬ (crowded.perform (.fire 1 .main 0)).1.objectIds.Nodup := by
  have hfull : crowdedSettings.maxPowerUps = UInt32.size - 1 := rfl
  exact ⟨by decide +kernel, shot_of_full_settings (Source.ofSeed 1) hfull 1 "ada" 0⟩

end World

end TankArena
