import Mathlib.Data.List.Iterate
import TankArena.Proofs.World.Course

/-!
# The ids of shots

Projectiles and beams take their ids from a counter that comes round after its greatest value.  As
long as it has not come round, `Issued` says where it stands: as many ids were handed out as it
counts, and every shot has one of them.  Then the ids to come are all different and free
(`Issued.spares`).

`Course.issued` reads the count off the course: the power-ups at the beginning, and then every shot
that was fired.
-/

namespace TankArena

variable {K : Type}

namespace World

/-! ## 1. The counter -/

/-- The ids that are handed out next, in order. -/
def nextIds (n : Nat) (w : World K) : List UInt32 := List.iterate idAfter w.nextObject n

theorem idAfter_toNat (id : UInt32) (h : id.toNat + 1 < UInt32.size) :
    (idAfter id).toNat = id.toNat + 1 := by
  have hadd : (id + 1).toNat = id.toNat + 1 := by
    rw [UInt32.toNat_add]
    exact Nat.mod_eq_of_lt h
  have hne : id + 1 ≠ 0 := by
    intro hzero
    rw [hzero] at hadd
    cases hadd
  rw [idAfter, if_neg hne, hadd]

theorem iterate_idAfter_toNat {id : UInt32} {n : Nat} (h : id.toNat + n < UInt32.size) :
    (List.iterate idAfter id n).map UInt32.toNat = List.range' id.toNat n := by
  induction n generalizing id with
  | zero => rfl
  | succ n ih =>
    have hafter := idAfter_toNat id (by omega)
    rw [List.iterate, List.map_cons, List.range'_succ, ih (by omega), hafter]

/-- Ids that are all different and that no shot has. -/
structure Spares (n : Nat) (w : World K) : Prop where
  nodup : (w.nextIds n).Nodup
  projectiles : ∀ p ∈ w.projectiles, p.id ∉ w.nextIds n
  beams : ∀ b ∈ w.beams, b.id ∉ w.nextIds n

/-- A number of ids was handed out, and every shot has one of them. -/
structure Issued (n : Nat) (w : World K) : Prop where
  nextObject_eq : w.nextObject.toNat = n + 1
  projectiles : ∀ p ∈ w.projectiles, p.id.toNat ≤ n
  beams : ∀ b ∈ w.beams, b.id.toNat ≤ n

variable {w : World K} {n k : Nat}

/-- **The ids to come are free** if the counter does not come round. -/
theorem Issued.spares (h : w.Issued n) (hroom : n + k + 1 < UInt32.size) : w.Spares k := by
  have hids : (w.nextIds k).map UInt32.toNat = List.range' (n + 1) k := by
    rw [nextIds, iterate_idAfter_toNat (by rw [h.nextObject_eq]; omega), h.nextObject_eq]
  have hlater : ∀ id ∈ w.nextIds k, n < id.toNat := by
    intro id hid
    have hmem : id.toNat ∈ List.range' (n + 1) k := hids ▸ List.mem_map_of_mem hid
    exact (List.mem_range'_1.mp hmem).1
  refine ⟨List.Nodup.of_map UInt32.toNat (hids ▸ List.nodup_range'), fun p hp hid => ?_,
    fun b hb hid => ?_⟩
  · exact absurd (hlater _ hid) (Nat.not_lt.mpr (h.projectiles p hp))
  · exact absurd (hlater _ hid) (Nat.not_lt.mpr (h.beams b hb))

/-- **A shot** takes the next id. -/
theorem Issued.release (h : w.Issued n) (hroom : n + 2 < UInt32.size) (s : Shot K) :
    (w.release s).Issued (n + 1) := by
  have hnext := h.nextObject_eq
  refine ⟨?_, ?_, ?_⟩
  · change (idAfter w.nextObject).toNat = n + 1 + 1
    rw [idAfter_toNat _ (by omega), hnext]
  · intro p hp
    cases s with
    | projectile location direction owner =>
      rcases Table.mem_put.mp hp with ⟨hold, _⟩ | rfl
      · exact Nat.le_succ_of_le (h.projectiles p hold)
      · exact Nat.le_of_eq hnext
    | beam => exact Nat.le_succ_of_le (h.projectiles p hp)
  · intro b hb
    cases s with
    | projectile => exact Nat.le_succ_of_le (h.beams b hb)
    | beam origin direction owner createdAt =>
      rcases Table.mem_put.mp hb with ⟨hold, _⟩ | rfl
      · exact Nat.le_succ_of_le (h.beams b hold)
      · exact Nat.le_of_eq hnext

/-- Shots that go and shots that keep their ids leave the count as it is. -/
theorem Issued.of_subset {v : World K} (h : w.Issued n) (hnext : v.nextObject = w.nextObject)
    (hprojectiles : ∀ p ∈ v.projectiles, ∃ q ∈ w.projectiles, p.id = q.id)
    (hbeams : ∀ b ∈ v.beams, b ∈ w.beams) : v.Issued n where
  nextObject_eq := hnext ▸ h.nextObject_eq
  projectiles := fun p hp => by
    obtain ⟨q, hq, hid⟩ := hprojectiles p hp
    exact hid ▸ h.projectiles q hq
  beams := fun b hb => h.beams b (hbeams b hb)

variable [Scalar K]

theorem Issued.addPowerUps (h : w.Issued n) (hroom : n + k + 1 < UInt32.size) :
    (w.addPowerUps k).Issued (n + k) := by
  induction k generalizing n w with
  | zero => exact h
  | succ k ih =>
    have hone : w.addPowerUp.Issued (n + 1) := by
      refine ⟨?_, fun p hp => Nat.le_succ_of_le (h.projectiles p hp),
        fun b hb => Nat.le_succ_of_le (h.beams b hb)⟩
      change (idAfter w.nextObject).toNat = n + 1 + 1
      rw [idAfter_toNat _ (by rw [h.nextObject_eq]; omega), h.nextObject_eq]
    have hrest := ih hone (by omega)
    rwa [Nat.add_right_comm, Nat.add_assoc] at hrest

/-- The power-ups at the beginning have the first ids. -/
theorem issued_ofSettings (settings : Settings K) (source : Source)
    (hroom : settings.maxPowerUps + 1 < UInt32.size) :
    (ofSettings settings source).Issued settings.maxPowerUps := by
  have hempty : (empty settings source).Issued 0 :=
    ⟨rfl, fun p hp => absurd hp List.not_mem_nil, fun b hb => absurd hb List.not_mem_nil⟩
  have hall := hempty.addPowerUps (k := settings.maxPowerUps) (by omega)
  rwa [Nat.zero_add] at hall

/-! ## 2. Courses -/

/-- How many shots were fired. -/
def shotsFired (past : List (Moment K)) : Nat := past.countP fun m => m.outcome.shot?.isSome

theorem shotsFired_cons (m : Moment K) (past : List (Moment K)) :
    shotsFired (m :: past) = shotsFired past + m.outcome.shot?.isSome.toNat := by
  unfold shotsFired
  rw [List.countP_cons]
  cases m.outcome.shot?.isSome <;> rfl

/-- The projectiles that a tick leaves are among those from before. -/
theorem tick_projectiles_sublist (now : Time) (w : World K) :
    ((w.tick now).projectiles.map Projectile.id).Sublist (w.projectiles.map Projectile.id) := by
  have hstruck : (w.tick now).projectiles.map Projectile.id
      = (w.walled now).projectiles.map Projectile.id :=
    Table.ids_eq_of_forall₂ (R := fun p q => Identified.ident q = Identified.ident p) (fun _ _ hid => hid)
      (Table.visit_forall₂ (strike_ident now) _ _)
  have hwalled : (w.walled now).projectiles.map Projectile.id
      = (w.projectiles.filter fun p => !p.died).map Projectile.id := by
    change List.map _ (List.map _ (List.map _ (List.map _ _))) = _
    simp only [List.map_map]
    rfl
  rw [hstruck, hwalled]
  exact List.filter_sublist.map _

theorem exists_projectile_before_tick {now : Time} {p : Projectile K}
    (hp : p ∈ (w.tick now).projectiles) : ∃ q ∈ w.projectiles, p.id = q.id := by
  have hid : p.id ∈ w.projectiles.map Projectile.id :=
    (tick_projectiles_sublist now w).subset (List.mem_map_of_mem hp)
  obtain ⟨q, hq, hsame⟩ := List.mem_map.mp hid
  exact ⟨q, hq, hsame.symm⟩

/-- **One operation** hands out an id exactly if it fires. -/
theorem Issued.perform (h : w.Issued n) (op : Operation K)
    (hroom : n + (Moment.outcome ⟨w, op⟩).shot?.isSome.toNat + 1 < UInt32.size) :
    (w.perform op).1.Issued (n + (Moment.outcome ⟨w, op⟩).shot?.isSome.toNat) := by
  unfold Moment.outcome at hroom ⊢
  rcases perform_cases w op with ⟨now, rfl⟩ | ⟨_, _, hworld, hshot⟩ | ⟨tanks, s, hworld, hshot⟩
  · exact h.of_subset rfl (fun p hp => exists_projectile_before_tick hp)
      fun b hb => (List.mem_filter.mp hb).1
  · rw [hworld, hshot]
    exact ⟨h.nextObject_eq, h.projectiles, h.beams⟩
  · have hothers : Issued n { w with tanks := tanks } := ⟨h.nextObject_eq, h.projectiles, h.beams⟩
    rw [hshot] at hroom
    rw [hworld, hshot]
    exact hothers.release hroom s

/-- **The ids of a course** if the counter does not come round. -/
theorem Course.issued {settings : Settings K} {source : Source} {past : List (Moment K)}
    (h : Course (ofSettings settings source) past w)
    (hroom : settings.maxPowerUps + shotsFired past + 1 < UInt32.size) :
    w.Issued (settings.maxPowerUps + shotsFired past) := by
  induction h with
  | start => exact issued_ofSettings settings source hroom
  | @perform past w op _ ih =>
    rw [shotsFired_cons, ← Nat.add_assoc] at hroom ⊢
    exact (ih (by omega)).perform op hroom
  | shuffle _ hshuffle ih =>
    exact (ih hroom).of_subset hshuffle.nextObject_eq
      (fun p hp => ⟨p, hshuffle.projectiles.mem_iff.mpr hp, rfl⟩)
      fun b hb => hshuffle.beams.mem_iff.mpr hb

end World

end TankArena
