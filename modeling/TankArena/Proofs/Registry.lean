import Mathlib.Data.List.Nodup
import TankArena.Registry

/-!
# Who is registered

A registry keeps every subscription that there ever was.  `Registry.ids` are the ids of those that
are registered now, and this file says what each operation does to them: `add` puts a free id in,
`remove` takes an id out, and sending and receiving leave them alone.

`Registry.lost` are the registered clients whose receivers have gone; a broadcast finds exactly
these.
-/

namespace TankArena.Registry

variable {M : Type}

/-! ## 1. The registered ids -/

/-- The ids of the registered clients. -/
def ids (r : Registry M) : List UInt32 :=
  (r.subscriptions.filter fun s => s.registered).map Subscription.id

theorem mem_ids {id : UInt32} {r : Registry M} :
    id ∈ r.ids ↔ ∃ s ∈ r.subscriptions, s.registered = true ∧ s.id = id := by
  unfold ids
  rw [List.mem_map]
  constructor
  · rintro ⟨s, hs, hid⟩
    exact ⟨s, List.mem_of_mem_filter hs, (List.mem_filter.mp hs).2, hid⟩
  · rintro ⟨s, hs, hregistered, hid⟩
    exact ⟨s, List.mem_filter.mpr ⟨hs, hregistered⟩, hid⟩

theorem contains_iff {id : UInt32} {r : Registry M} : r.contains id = true ↔ id ∈ r.ids := by
  unfold contains
  rw [mem_ids, List.any_eq_true]
  constructor
  · rintro ⟨s, hs, hmatch⟩
    rw [Bool.and_eq_true, beq_iff_eq] at hmatch
    exact ⟨s, hs, hmatch⟩
  · rintro ⟨s, hs, hmatch⟩
    refine ⟨s, hs, ?_⟩
    rw [Bool.and_eq_true, beq_iff_eq]
    exact hmatch

theorem size_eq (r : Registry M) : r.size = r.ids.length := by
  unfold size ids
  rw [List.length_map, List.countP_eq_length_filter]

/-! ## 2. Registration -/

/-- A free id is registered. -/
theorem ids_add {id : UInt32} {r : Registry M} (h : id ∉ r.ids) (capacity : Nat) :
    (r.add id capacity).1.ids = r.ids ++ [id] := by
  have hfree : r.contains id = false := by
    rw [Bool.eq_false_iff]
    exact fun hused => h (contains_iff.mp hused)
  unfold add ids
  dsimp only
  rw [hfree, List.filter_append, List.map_append]
  rfl

/-- The subscriptions after a change that leaves ids and registration alone have the same ids. -/
theorem ids_map {f : Subscription M → Subscription M} (hid : ∀ s, (f s).id = s.id)
    (hregistered : ∀ s, (f s).registered = s.registered) (r : Registry M) :
    ids ⟨r.subscriptions.map f⟩ = r.ids := by
  unfold ids
  dsimp only
  rw [List.filter_map, List.map_map]
  simp only [Function.comp_def, hid, hregistered]

theorem ids_remove (id : UInt32) (r : Registry M) :
    (r.remove id).1.ids = r.ids.filter fun other => other != id := by
  have hid : ∀ s : Subscription M,
      (if s.registered && s.id == id then { s with registered := false } else s).id = s.id := by
    intro s
    split <;> rfl
  have hkept : ∀ s : Subscription M,
      (if s.registered && s.id == id then { s with registered := false } else s).registered
        = (s.id != id && s.registered) := by
    intro s
    by_cases hs : s.id = id
    · cases hregistered : s.registered <;> simp [hs, hregistered]
    · simp [hs]
  unfold remove ids
  dsimp only
  rw [List.filter_map, List.map_map, List.filter_map, List.filter_filter]
  simp only [Function.comp_def, hid, hkept]

/-- Two ids may be taken out in either order. -/
theorem remove_comm (id key : UInt32) (r : Registry M) :
    ((r.remove id).1.remove key).1 = ((r.remove key).1.remove id).1 := by
  unfold remove
  dsimp only
  rw [List.map_map, List.map_map]
  refine congrArg Registry.mk (List.map_congr_left fun s _ => ?_)
  rw [Function.comp_apply, Function.comp_apply]
  cases hid : s.registered && s.id == id <;> cases hkey : s.registered && s.id == key <;>
    simp only [hid, hkey, Bool.false_and, Bool.false_eq_true, if_true, if_false]

/-! ## 3. Sending and receiving -/

theorem ids_broadcast (m : M) (r : Registry M) : (r.broadcast m).1.ids = r.ids := by
  refine ids_map (fun s => ?_) (fun s => ?_) r
  · unfold Subscription.receive
    split <;> rfl
  · unfold Subscription.receive
    split <;> rfl

theorem ids_modifyMailbox (handle : Nat) (f : Mailbox M → Mailbox M) (r : Registry M) :
    (r.modifyMailbox handle f).ids = r.ids := by
  unfold modifyMailbox ids
  dsimp only
  induction r.subscriptions generalizing handle with
  | nil => rw [List.modify_nil]
  | cons s subscriptions ih =>
    cases handle with
    | zero =>
      rw [List.modify_zero_cons, List.filter_cons, List.filter_cons]
      split <;> rfl
    | succ handle =>
      rw [List.modify_succ_cons, List.filter_cons, List.filter_cons]
      split
      · rw [List.map_cons, List.map_cons, ih]
      · exact ih handle

/-! ## 4. Lost clients -/

/-- The ids of the registered clients whose receivers have gone. -/
def lost (r : Registry M) : List UInt32 :=
  (r.subscriptions.filter Subscription.isLost).map Subscription.id

/-- A broadcast finds exactly the lost clients. -/
theorem broadcast_snd (m : M) (r : Registry M) : (r.broadcast m).2 = r.lost := rfl

theorem mem_lost {id : UInt32} {r : Registry M} :
    id ∈ r.lost ↔ ∃ s ∈ r.subscriptions,
      s.registered = true ∧ s.id = id ∧ s.mailbox.delivery = .closed := by
  unfold lost
  rw [List.mem_map]
  constructor
  · rintro ⟨s, hs, hid⟩
    obtain ⟨hmem, hlost⟩ := List.mem_filter.mp hs
    unfold Subscription.isLost at hlost
    rw [Bool.and_eq_true, beq_iff_eq] at hlost
    exact ⟨s, hmem, hlost.1, hid, hlost.2⟩
  · rintro ⟨s, hs, hregistered, hid, hclosed⟩
    refine ⟨s, List.mem_filter.mpr ⟨hs, ?_⟩, hid⟩
    unfold Subscription.isLost
    rw [Bool.and_eq_true, beq_iff_eq]
    exact ⟨hregistered, hclosed⟩

/-- Nobody is sent to in a registry without registered clients. -/
theorem broadcast_of_ids_eq_nil {r : Registry M} (h : r.ids = []) (m : M) :
    r.broadcast m = (r, []) := by
  have hnone : ∀ s ∈ r.subscriptions, s.registered = false := by
    intro s hs
    rw [Bool.eq_false_iff]
    intro hregistered
    have hmem : s.id ∈ r.ids := mem_ids.mpr ⟨s, hs, hregistered, rfl⟩
    rw [h] at hmem
    exact absurd hmem List.not_mem_nil
  have hsame : r.subscriptions.map (Subscription.receive m) = r.subscriptions := by
    rw [List.map_congr_left (g := id) fun s hs => ?_, List.map_id]
    unfold Subscription.receive
    rw [hnone s hs]
    rfl
  have hlost : r.subscriptions.filter Subscription.isLost = [] := by
    rw [List.filter_eq_nil_iff]
    intro s hs
    unfold Subscription.isLost
    rw [hnone s hs]
    exact Bool.false_ne_true
  unfold broadcast
  rw [hsame, hlost]
  rfl

end TankArena.Registry
