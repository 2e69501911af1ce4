import TankArena.Proofs.Table
import TankArena.Proofs.Tank.Sound

/-!
# What orders do

Besides a tick, only a player's orders change a tank while its player is there: it obeys a command,
fires a projectile or fires a beam.  `Tank.Order` lists these three with their conditions.

`fire_cases` and `command_cases` say everything that an order can do to a world: nothing, or one of
these to one tank, and what it fired.  What is needed later of `fire` and `command` is read off
them: the tanks correspond one by one through orders, and the power-ups stay as they are.
-/

namespace TankArena

open Relation (ReflTransGen)

variable {K : Type}

namespace Tank

/-! ## 1. Orders to a single tank -/

/-- The tank after it fired a projectile. -/
def shoot (now : Time) (t : Tank K) : Tank K := { t with lastFire := some now }

/-- The tank after it fired a beam. -/
def discharge (t : Tank K) : Tank K := { t with ammo := t.ammo - 1 }

variable [Scalar K]

/-- One thing that an order at an instant can do to a tank. -/
inductive Order (cooldown : Nat) (now : Time) : Tank K → Tank K → Prop
  /-- The tank obeys a command of its player. -/
  | obey {t : Tank K} (c : Command K) : t.disconnected = false → Order cooldown now t (t.obey c)
  /-- The tank fires a projectile. -/
  | shoot {t : Tank K} :
      t.isLive = true → t.isLoaded cooldown now = true → Order cooldown now t (t.shoot now)
  /-- The tank fires a beam. -/
  | discharge {t : Tank K} :
      t.isLive = true → t.ammo ≠ 0 → Order cooldown now t t.discharge

/-- Any number of orders. -/
abbrev Orders (cooldown : Nat) (now : Time) : Tank K → Tank K → Prop :=
  ReflTransGen (Order cooldown now)

variable {cooldown : Nat} {now : Time} {t u : Tank K}

theorem Order.badge_eq (h : Order cooldown now t u) : u.badge = t.badge := by
  cases h <;> rfl

/-- Orders leave the badge alone. -/
theorem Orders.badge_eq (h : Orders cooldown now t u) : u.badge = t.badge :=
  Table.eq_of_reflTransGen (fun _ _ horder => horder.badge_eq) h

theorem Orders.id_eq (h : Orders cooldown now t u) : u.id = t.id :=
  congrArg Badge.id (Orders.badge_eq h)

/-- **Orders keep a tank sound.** -/
theorem Sound.orders (h : t.Sound) (horders : Orders cooldown now t u) : u.Sound := by
  induction horders with
  | refl => exact h
  | tail _ horder ih =>
    cases horder with
    | obey => exact { ih with }
    | shoot => exact { ih with }
    | discharge _ hcharge => exact ih.spend hcharge

end Tank

namespace World

open Table (Keyed)

/-! ## 2. What an order can do to a world -/

/-- **Firing.**  Nothing comes of it, or a live tank that is loaded fires a projectile, or a live
tank that has a charge fires a beam. -/
theorem fire_cases (id : UInt32) (trigger : Trigger) (now : Time) (w : World K) :
    w.fire id trigger now = (w, none) ∨
    (∃ t, w.tank? id = some t ∧ t.isLive = true ∧ trigger = .main ∧
      t.isLoaded w.fireCooldown now = true ∧
      w.fire id trigger now
        = ((launch t { w with tanks := Table.modify id (Tank.shoot now) w.tanks }).1,
            some w.nextObject)) ∨
    (∃ t, w.tank? id = some t ∧ t.isLive = true ∧ trigger = .alt ∧ t.ammo ≠ 0 ∧
      w.fire id trigger now
        = ((shine t now { w with tanks := Table.modify id Tank.discharge w.tanks }).1,
            some w.nextObject)) := by
  unfold fire
  cases htank : w.tank? id with
  | none => exact Or.inl rfl
  | some t =>
    dsimp only
    by_cases hlive : t.isLive = true
    · rw [if_neg (by simp [hlive])]
      cases trigger with
      | idle => exact Or.inl rfl
      | main =>
        by_cases hload : t.isLoaded w.fireCooldown now = true
        · exact Or.inr (Or.inl ⟨t, rfl, hlive, rfl, hload, if_pos hload⟩)
        · exact Or.inl (if_neg hload)
      | alt =>
        by_cases hammo : t.ammo = 0
        · exact Or.inl (if_pos hammo)
        · exact Or.inr (Or.inr ⟨t, rfl, hlive, rfl, hammo, if_neg hammo⟩)
    · exact Or.inl (if_pos (by simp [hlive]))

theorem fire_powerUps (id : UInt32) (trigger : Trigger) (now : Time) (w : World K) :
    (w.fire id trigger now).1.powerUps = w.powerUps := by
  rcases fire_cases id trigger now w with hnone | ⟨t, _, _, _, _, hfire⟩ | ⟨t, _, _, _, _, hfire⟩
  · rw [hnone]
  · rw [hfire]
    rfl
  · rw [hfire]
    rfl

variable [Scalar K]

/-- **Commanding.**  Nothing comes of it, or a tank whose player is there obeys and then pulls its
trigger. -/
theorem command_cases (id : UInt32) (c : Command K) (now : Time) (w : World K) :
    w.command id c now = (w, none) ∨
    (∃ t, w.tank? id = some t ∧ t.disconnected = false ∧
      w.command id c now
        = { w with tanks := Table.modify id (Tank.obey c) w.tanks }.fire id c.trigger now) := by
  unfold command
  cases htank : w.tank? id with
  | none => exact Or.inl rfl
  | some t =>
    dsimp only
    by_cases hgone : t.disconnected = true
    · exact Or.inl (if_pos hgone)
    · exact Or.inr ⟨t, rfl, by simpa using hgone, if_neg hgone⟩

theorem command_powerUps (id : UInt32) (c : Command K) (now : Time) (w : World K) :
    (w.command id c now).1.powerUps = w.powerUps := by
  rcases command_cases id c now w with hnone | ⟨t, _, _, hcommand⟩
  · rw [hnone]
  · rw [hcommand, fire_powerUps]

/-! ## 3. What it does to the tanks -/

/-- Tanks that correspond one by one through orders. -/
abbrev TanksOrder (cooldown : Nat) (now : Time) : List (Tank K) → List (Tank K) → Prop :=
  Table.Evolve (Tank.Order cooldown now)

/-- An order to the tank that is found under an id changes no other tank. -/
theorem modify_tanks {cooldown : Nat} {now : Time} {w : World K} (hk : Keyed w.tanks)
    {id : UInt32} {t : Tank K} (ht : w.tank? id = some t) {f : Tank K → Tank K}
    (hf : Tank.Order cooldown now t (f t)) :
    TanksOrder cooldown now w.tanks (Table.modify id f w.tanks) := by
  refine Table.evolve_map fun u hu => ?_
  by_cases hid : Identified.ident u = id
  · have hut : u = t := by
      have hfound := (Table.find?_eq_some_iff hk).mpr ⟨hu, hid⟩
      exact Option.some.inj (hfound.symm.trans ht)
    rw [if_pos hid, hut]
    exact Or.inl hf
  · rw [if_neg hid]
    exact Or.inr rfl

theorem fire_tanks (id : UInt32) (trigger : Trigger) (now : Time) {w : World K}
    (hk : Keyed w.tanks) :
    TanksOrder w.fireCooldown now w.tanks (w.fire id trigger now).1.tanks := by
  rcases fire_cases id trigger now w with hnone | hmain | halt
  · rw [hnone]
    exact Table.Evolve.refl _ _
  · obtain ⟨t, ht, hlive, _, hload, hfire⟩ := hmain
    rw [hfire]
    exact modify_tanks hk ht (Tank.Order.shoot hlive hload)
  · obtain ⟨t, ht, hlive, _, hammo, hfire⟩ := halt
    rw [hfire]
    exact modify_tanks hk ht (Tank.Order.discharge hlive hammo)

/-- **What a command does to the tanks.** -/
theorem command_tanks (id : UInt32) (c : Command K) (now : Time) {w : World K}
    (hk : Keyed w.tanks) :
    TanksOrder w.fireCooldown now w.tanks (w.command id c now).1.tanks := by
  rcases command_cases id c now w with hnone | ⟨t, ht, hplayer, hcommand⟩
  · rw [hnone]
    exact Table.Evolve.refl _ _
  · rw [hcommand]
    have hobey : TanksOrder w.fireCooldown now w.tanks (Table.modify id (Tank.obey c) w.tanks) :=
      modify_tanks hk ht (Tank.Order.obey c hplayer)
    have hobeyed : Keyed (Table.modify id (Tank.obey c) w.tanks) := hk.modify id fun _ => rfl
    have hfire := fire_tanks id c.trigger now
      (w := { w with tanks := Table.modify id (Tank.obey c) w.tanks }) hobeyed
    exact hobey.trans hfire

end World

end TankArena
