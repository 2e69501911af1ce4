import TankArena.Proofs.World.Orders
import TankArena.Proofs.World.Stages

/-!
# Operations keep a world sound

A world is sound when its tanks are keyed, so that what is found under an id is the one tank with
that id, and when each of its tanks and power-ups is sound.  This file shows that

* every operation keeps a world sound (`Sound.perform`), at any instant and for any id;
* no operation adds a power-up or takes one away, nor moves it in its table (`perform_powerUps`);
* so a run of operations keeps both (`Sound.run`, `run_powerUps`).

Instants are not assumed to increase: a tick or an order may be told any time.
-/

namespace TankArena.World

open Table (Keyed)

variable {K : Type} [Scalar K]

/-! ## 1. Sound worlds -/

/-- What holds of a world at every moment. -/
structure Sound (w : World K) : Prop where
  keyed : Keyed w.tanks
  tanks : ∀ t ∈ w.tanks, t.Sound
  powerUps : ∀ p ∈ w.powerUps, p.Sound

theorem sound_empty (settings : Settings K) (source : Source) : (empty settings source).Sound where
  keyed := Table.keyed_nil
  tanks := fun _ ht => absurd ht List.not_mem_nil
  powerUps := fun _ hp => absurd hp List.not_mem_nil

theorem Sound.addPowerUp {w : World K} (h : w.Sound) : w.addPowerUp.Sound where
  keyed := h.keyed
  tanks := h.tanks
  powerUps := by
    intro p hp
    rcases Table.mem_put.mp hp with ⟨hold, _⟩ | rfl
    · exact h.powerUps p hold
    · exact PowerUp.sound_fresh _ _

theorem Sound.addPowerUps {w : World K} (h : w.Sound) (n : Nat) : (w.addPowerUps n).Sound := by
  induction n generalizing w with
  | zero => exact h
  | succ n ih => exact ih h.addPowerUp

theorem addPowerUps_tanks (n : Nat) (w : World K) : (w.addPowerUps n).tanks = w.tanks := by
  induction n generalizing w with
  | zero => rfl
  | succ n ih => exact ih w.addPowerUp

/-- Nobody is there at the beginning. -/
theorem ofSettings_tanks (settings : Settings K) (source : Source) :
    (ofSettings settings source).tanks = [] :=
  addPowerUps_tanks settings.maxPowerUps (empty settings source)

/-- The world is sound at its beginning. -/
theorem sound_ofSettings (settings : Settings K) (source : Source) :
    (ofSettings settings source).Sound :=
  (sound_empty settings source).addPowerUps settings.maxPowerUps

/-! ## 2. Coming and going -/

/-- **Joining.**  An id in use changes nothing; any other id gets a fresh tank. -/
theorem join_cases (id : UInt32) (name : String) (w : World K) :
    (Table.has id w.tanks = true ∧ w.join id name = (w, false)) ∨
    (Table.has id w.tanks = false ∧
      w.join id name
        = ({ w with
              tanks := Table.put
                (Tank.fresh id (Text.trim name) (w.source.place w.half).1) w.tanks
              source := (w.source.place w.half).2 },
            true)) := by
  unfold join
  by_cases hused : Table.has id w.tanks = true
  · exact Or.inl ⟨hused, if_pos hused⟩
  · exact Or.inr ⟨by simpa using hused, if_neg hused⟩

theorem tank?_join {id : UInt32} {w : World K} (hnew : Table.has id w.tanks = false)
    (name : String) : (w.join id name).1.tank? id
      = some (Tank.fresh id (Text.trim name) (w.source.place w.half).1) := by
  rcases join_cases id name w with ⟨hused, _⟩ | ⟨_, hjoin⟩
  · exact absurd (hused.symm.trans hnew) (by decide)
  · rw [hjoin]
    exact (Table.find?_put _ _ _).trans (if_pos rfl)

theorem Sound.join {w : World K} (h : w.Sound) (id : UInt32) (name : String) :
    (w.join id name).1.Sound := by
  rcases join_cases id name w with ⟨_, hsame⟩ | ⟨_, hnew⟩
  · rw [hsame]
    exact h
  · rw [hnew]
    refine { h with keyed := h.keyed.put _, tanks := ?_ }
    intro t ht
    rcases Table.mem_put.mp ht with ⟨hold, _⟩ | rfl
    · exact h.tanks t hold
    · exact Tank.sound_fresh _ _ _

theorem Sound.disconnect {w : World K} (h : w.Sound) (id : UInt32) : (w.disconnect id).Sound := by
  refine { h with keyed := h.keyed.modify id fun _ => rfl, tanks := ?_ }
  intro t ht
  obtain ⟨u, hu, rfl⟩ := List.mem_map.mp ht
  by_cases hid : Identified.ident u = id
  · rw [if_pos hid]
    exact (h.tanks u hu).disconnect
  · rw [if_neg hid]
    exact h.tanks u hu

theorem Sound.purge {w : World K} (h : w.Sound) : w.purge.1.Sound := by
  refine { h with keyed := (h.keyed.filter _).map fun _ => rfl, tanks := ?_ }
  intro t ht
  obtain ⟨u, hu, rfl⟩ := List.mem_map.mp ht
  exact { h.tanks u (List.mem_of_mem_filter hu) with }

/-! ## 3. Orders and ticks -/

/-- Tanks that correspond through orders to sound ones are sound. -/
theorem Sound.of_orders {w w' : World K} (h : w.Sound) {cooldown : Nat} {now : Time}
    (htanks : TanksOrder cooldown now w.tanks w'.tanks) (hpowerUps : w'.powerUps = w.powerUps) :
    w'.Sound where
  keyed := h.keyed.of_ids_eq (Table.ids_eq_of_forall₂ (fun _ _ ho => Tank.Orders.id_eq ho) htanks)
  tanks := Table.forall_of_forall₂ (fun _ _ ho ht => Tank.Sound.orders ht ho) htanks h.tanks
  powerUps := hpowerUps ▸ h.powerUps

theorem Sound.command {w : World K} (h : w.Sound) (id : UInt32) (c : Command K) (now : Time) :
    (w.command id c now).1.Sound :=
  h.of_orders (command_tanks id c now h.keyed) (command_powerUps id c now w)

theorem Sound.fire {w : World K} (h : w.Sound) (id : UInt32) (trigger : Trigger) (now : Time) :
    (w.fire id trigger now).1.Sound :=
  h.of_orders (fire_tanks id trigger now h.keyed) (fire_powerUps id trigger now w)

/-- **A tick keeps a world sound.**  The points that come after the changes touch the score only. -/
theorem Sound.tick {w : World K} (h : w.Sound) (now : Time) : (w.tick now).Sound where
  keyed := tick_keyed now h.keyed
  tanks := by
    refine Table.forall_of_forall₂ ?_ (tick_tanks now h.keyed) h.tanks
    rintro t u ⟨v, hchanges, rfl⟩ ht
    exact { ht.changes hchanges with }
  powerUps := by
    refine Table.forall_of_forall₂ ?_ (tick_powerUps now w) h.powerUps
    intro p q hchanges hp
    induction hchanges with
    | refl => exact hp
    | tail _ hchange _ =>
      cases hchange with
      | revive location => exact PowerUp.sound_revive _ _
      | take => exact PowerUp.sound_take _ _

/-! ## 4. Operations and runs -/

/-- **Every operation keeps a world sound.** -/
theorem Sound.perform {w : World K} (h : w.Sound) (op : Operation K) : (w.perform op).1.Sound := by
  cases op with
  | join id name => exact h.join id name
  | disconnect id => exact h.disconnect id
  | command id c now => exact h.command id c now
  | fire id trigger now => exact h.fire id trigger now
  | tick now => exact h.tick now
  | purge => exact h.purge
  | snapshot => exact h.purge

/-- **No operation adds a power-up or takes one away.**  A tick changes power-ups but not their
ids. -/
theorem perform_powerUps (w : World K) (op : Operation K) :
    (w.perform op).1.powerUps.map PowerUp.id = w.powerUps.map PowerUp.id := by
  cases op with
  | join id name =>
    have hjoin : (w.perform (.join id name)).1 = (w.join id name).1 := rfl
    rw [hjoin]
    rcases join_cases id name w with ⟨_, hsame⟩ | ⟨_, hnew⟩
    · rw [hsame]
    · rw [hnew]
  | disconnect id => rfl
  | command id c now => exact congrArg _ (command_powerUps id c now w)
  | fire id trigger now => exact congrArg _ (fire_powerUps id trigger now w)
  | tick now =>
    have hid : ∀ p q : PowerUp K, Relation.ReflTransGen (PowerUp.Change w.respawnDelay now) p q →
        q.id = p.id :=
      fun p q h => Table.eq_of_reflTransGen (fun _ _ hchange => hchange.id_eq) h
    exact Table.ids_eq_of_forall₂ hid (tick_powerUps now w)
  | purge => rfl
  | snapshot => rfl

/-- What every operation keeps, a run keeps. -/
theorem run_invariant {I : World K → Prop} (h : ∀ w op, I w → I (w.perform op).1) {w : World K}
    (hw : I w) (ops : List (Operation K)) : I (w.run ops) := by
  induction ops generalizing w with
  | nil => exact hw
  | cons op ops ih => exact ih (h w op hw)

theorem Sound.run {w : World K} (h : w.Sound) (ops : List (Operation K)) : (w.run ops).Sound :=
  run_invariant (fun _ op hw => hw.perform op) h ops

theorem run_powerUps (w : World K) (ops : List (Operation K)) :
    (w.run ops).powerUps.map PowerUp.id = w.powerUps.map PowerUp.id :=
  run_invariant (I := fun v => v.powerUps.map PowerUp.id = w.powerUps.map PowerUp.id)
    (fun v op hv => (perform_powerUps v op).trans hv) rfl ops

end TankArena.World
