import TankArena.Proofs.Tank.Change

/-!
# Sound tanks and power-ups

The hit points, the two flags and the clock of a tank are four fields that say overlapping things.
`Tank.Sound` says how they agree, and this file shows that nothing the arena does to a single tank
breaks the agreement.  The harmful ones are those that write some of the four fields only:
`disconnect` takes the hit points and sets both flags but leaves the clock alone, and `revive`
clears the clock and one flag, so it is sound only while the player is there.

`PowerUp.Sound` is the same for power-ups, which have one flag and the clock.
-/

namespace TankArena

variable {K : Type}

/-! ## 1. Power-ups -/

namespace PowerUp

/-- What holds of a power-up at every moment: it is gone exactly while its clock runs. -/
def Sound (p : PowerUp K) : Prop := p.died = true ↔ p.diedAt.isSome = true

theorem sound_fresh (id : UInt32) (location : Vec K) : (fresh id location).Sound := by
  simp [Sound, fresh]

theorem sound_take (now : Time) (p : PowerUp K) : (p.take now).Sound := by
  simp [Sound, take]

theorem sound_revive (location : Vec K) (p : PowerUp K) : (p.revive location).Sound := by
  simp [Sound, revive]

end PowerUp

/-! ## 2. Tanks -/

variable [Scalar K]

/-- What holds of a tank at every moment. -/
structure Tank.Sound (t : Tank K) : Prop where
  hitPoints_le : t.hitPoints ≤ 3
  died_iff : t.died = true ↔ t.hitPoints = 0
  ammo_le : t.ammo ≤ 2
  died_of_disconnected : t.disconnected = true → t.died = true
  died_of_diedAt : t.diedAt.isSome = true → t.died = true
  /-- A dead tank whose player is there has its respawn clock running. -/
  diedAt_of_died : t.died = true → t.disconnected = false → t.diedAt.isSome = true
  /-- The body points along an axis: up, down, left or right. -/
  orientation_mem : t.orientation ∈ [⟨0.0, -1.0⟩, ⟨0.0, 1.0⟩, ⟨-1.0, 0.0⟩, ⟨1.0, 0.0⟩]

namespace Tank

theorem sound_fresh (id : UInt32) (name : String) (location : Vec K) :
    (fresh id name location).Sound where
  hitPoints_le := by simp [fresh, Rules.maxHitPoints]
  died_iff := by simp [fresh, Rules.maxHitPoints]
  ammo_le := by simp [fresh]
  died_of_disconnected := by simp [fresh]
  died_of_diedAt := by simp [fresh]
  diedAt_of_died := by simp [fresh]
  orientation_mem := by simp [fresh, Vec.up]

namespace Sound

variable {t : Tank K}

theorem kill (h : t.Sound) (now : Time) : (t.kill now).Sound where
  hitPoints_le := by simp [Tank.kill]
  died_iff := by simp [Tank.kill]
  ammo_le := h.ammo_le
  died_of_disconnected := fun _ => rfl
  died_of_diedAt := fun _ => rfl
  diedAt_of_died := fun _ _ => rfl
  orientation_mem := h.orientation_mem

/-- A hit that leaves the tank alive takes one of at least two hit points, so the tank was not dead
and is not dead now. -/
theorem damage (h : t.Sound) (now : Time) : (t.damage now).Sound := by
  unfold Tank.damage
  split
  · exact h.kill now
  · rename_i hfrail
    have hmore : 1 < t.hitPoints := by simpa [isFrail] using hfrail
    have halive : ¬ t.died = true := by
      intro hdied
      rw [h.died_iff.mp hdied] at hmore
      exact absurd hmore (by decide)
    have hle : t.hitPoints.toNat ≤ 3 := UInt8.le_iff_toNat_le.mp h.hitPoints_le
    have hlt : 1 < t.hitPoints.toNat := UInt8.lt_iff_toNat_lt.mp hmore
    have hsub : (t.hitPoints - 1).toNat = t.hitPoints.toNat - 1 :=
      UInt8.toNat_sub_of_le _ _ (UInt8.le_of_lt hmore)
    refine { h with hitPoints_le := ?_, died_iff := iff_of_false halive fun hzero => ?_ }
    · rw [UInt8.le_iff_toNat_le, hsub]
      exact Nat.le_trans (Nat.sub_le _ _) hle
    · have hzero' : (t.hitPoints - 1).toNat = 0 := congrArg UInt8.toNat hzero
      omega

theorem revive (h : t.Sound) (hplayer : t.disconnected = false) (location : Vec K) :
    (t.revive location).Sound where
  hitPoints_le := by simp [Tank.revive, Rules.maxHitPoints]
  died_iff := by simp [Tank.revive, Rules.maxHitPoints]
  ammo_le := h.ammo_le
  died_of_disconnected := by simp [Tank.revive, hplayer]
  died_of_diedAt := by simp [Tank.revive]
  diedAt_of_died := by simp [Tank.revive]
  orientation_mem := h.orientation_mem

theorem disconnect (h : t.Sound) : t.disconnect.Sound where
  hitPoints_le := by simp [Tank.disconnect]
  died_iff := by simp [Tank.disconnect]
  ammo_le := h.ammo_le
  died_of_disconnected := fun _ => rfl
  died_of_diedAt := fun _ => rfl
  diedAt_of_died := by simp [Tank.disconnect]
  orientation_mem := h.orientation_mem

theorem reload (h : t.Sound) : t.reload.Sound := by
  refine { h with ammo_le := ?_ }
  unfold Tank.reload Rules.maxAmmo
  dsimp only
  split
  · rename_i hroom
    have hlt : t.ammo.toNat < 2 := UInt8.lt_iff_toNat_lt.mp hroom
    have hadd : (t.ammo + 1).toNat = (t.ammo.toNat + 1) % 256 := UInt8.toNat_add _ _
    rw [UInt8.le_iff_toNat_le, hadd]
    exact Nat.le_trans (Nat.mod_le _ _) hlt
  · exact UInt8.le_refl 2

/-- A charge is spent only if there is one. -/
theorem spend (h : t.Sound) (hcharge : t.ammo ≠ 0) :
    ({ t with ammo := t.ammo - 1 } : Tank K).Sound := by
  refine { h with ammo_le := ?_ }
  have hle : t.ammo.toNat ≤ 2 := UInt8.le_iff_toNat_le.mp h.ammo_le
  have hpos : 1 ≤ t.ammo.toNat :=
    Nat.one_le_iff_ne_zero.mpr fun h0 => hcharge (UInt8.toNat_inj.mp h0)
  have hsub : (t.ammo - 1).toNat = t.ammo.toNat - 1 :=
    UInt8.toNat_sub_of_le _ _ (UInt8.le_iff_toNat_le.mpr hpos)
  rw [UInt8.le_iff_toNat_le, hsub]
  exact Nat.le_trans (Nat.sub_le _ _) hle

theorem step (h : t.Sound) : t.step.Sound := by
  unfold Tank.step
  split
  · exact h
  · split
    · exact { h with }
    · rename_i dir hdir
      refine { h with orientation_mem := ?_ }
      cases hdrive : t.drive with
      | hold => rw [hdrive] at hdir; exact absurd hdir (by simp [Drive.unit?])
      | up | down | left | right =>
        rw [hdrive] at hdir
        simp only [Drive.unit?, Vec.up, Vec.down, Vec.left, Vec.right, Option.some.injEq] at hdir
        simp [← hdir]

theorem rebound (h : t.Sound) (boxes : List (WallBox K)) : (t.rebound boxes).Sound := by
  unfold Tank.rebound
  split
  · exact { h with }
  · exact h

/-- **A tick keeps a tank sound.** -/
theorem changes {delay : Nat} {now : Time} {u : Tank K} (h : t.Sound)
    (hchanges : Changes delay now t u) : u.Sound := by
  induction hchanges with
  | refl => exact h
  | tail _ hchange ih =>
    cases hchange with
    | revive location hdue => exact ih.revive (not_disconnected_of_isDue hdue) location
    | step => exact ih.step
    | wrap => exact { ih with }
    | rebound boxes => exact ih.rebound boxes
    | damage => exact ih.damage now
    | reload => exact ih.reload
    | kill => exact ih.kill now

end Sound

end Tank

end TankArena
