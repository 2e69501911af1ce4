import TankArena.Proofs.World.Order

/-!
# What is known of a player

`badge? id w` is the badge of the tank under an id: who it is, whether its player has gone, whether
it was shown, and its score.  This is all that a client's membership depends on, so this file says
of each thing that can happen to a world what becomes of the badges, and later files reason about
badges alone.

The order in which a world is visited shows in no badge (`Shuffle.badge?_eq`).  A player's way
through these equations is: `Badge.fresh` on joining, `Badge.gain` on every tick,
`Badge.retire` when the player goes, and at a purge either the end, for the retired, or
`Badge.seen`.
-/

namespace TankArena

variable {K : Type}

namespace Tank.Badge

/-! ## 1. What becomes of a badge -/

/-- The badge of a player who has just joined. -/
def fresh (id : UInt32) (name : String) : Badge := ⟨id, name, false, true, 0⟩

/-- The badge with several more points. -/
def gain (n : Nat) (b : Badge) : Badge := { b with score := b.score + UInt32.ofNat n }

/-- The badge of a player who has gone. -/
def retire (b : Badge) : Badge := { b with disconnected := true }

/-- The badge of a player who was shown. -/
def seen (b : Badge) : Badge := { b with joined := false }

section Fields

variable (n : Nat) (b : Badge)

@[simp] theorem gain_name : (b.gain n).name = b.name := rfl
@[simp] theorem gain_disconnected : (b.gain n).disconnected = b.disconnected := rfl
@[simp] theorem gain_joined : (b.gain n).joined = b.joined := rfl
@[simp] theorem gain_score : (b.gain n).score = b.score + UInt32.ofNat n := rfl

@[simp] theorem retire_name : b.retire.name = b.name := rfl
@[simp] theorem retire_disconnected : b.retire.disconnected = true := rfl
@[simp] theorem retire_joined : b.retire.joined = b.joined := rfl
@[simp] theorem retire_score : b.retire.score = b.score := rfl

@[simp] theorem seen_name : b.seen.name = b.name := rfl
@[simp] theorem seen_disconnected : b.seen.disconnected = b.disconnected := rfl
@[simp] theorem seen_joined : b.seen.joined = false := rfl
@[simp] theorem seen_score : b.seen.score = b.score := rfl

end Fields

end Tank.Badge

namespace World

open Table (Keyed)
open Tank (Badge)

/-! ## 2. The badge under an id -/

/-- The badge of the tank with an id. -/
def badge? (id : UInt32) (w : World K) : Option Badge := (w.tank? id).map Tank.badge

/-- Whether the tank with an id is there and its player has gone. -/
def Flagged (id : UInt32) (w : World K) : Prop := ∃ b, w.badge? id = some b ∧ b.disconnected = true

/-- Whether the tank with an id is there and its player too. -/
def Present (id : UInt32) (w : World K) : Prop := ∃ b, w.badge? id = some b ∧ b.disconnected = false

variable {w : World K}

theorem has_iff_badge? (id : UInt32) (w : World K) :
    Table.has id w.tanks = true ↔ w.badge? id ≠ none := by
  unfold badge? tank?
  rw [Table.has_eq_isSome, Ne, Option.map_eq_none_iff, Option.isSome_iff_ne_none]

theorem badge?_of_mem (hk : Keyed w.tanks) {t : Tank K} (ht : t ∈ w.tanks) :
    w.badge? t.id = some t.badge := by
  have hfound : w.tank? t.id = some t := (Table.find?_eq_some_iff hk).mpr ⟨ht, rfl⟩
  unfold badge?
  rw [hfound, Option.map_some]

theorem badge?_of_tanks_eq_nil (h : w.tanks = []) (id : UInt32) : w.badge? id = none := by
  unfold badge? tank?
  rw [h]
  rfl

/-- A shuffle shows in no badge. -/
theorem Shuffle.badge?_eq {w' : World K} (h : w.Shuffle w') (hk : Keyed w.tanks) (id : UInt32) :
    w'.badge? id = w.badge? id :=
  congrArg (Option.map Tank.badge) (hk.find?_perm h.tanks id)

/-- The tanks whose players are there, by their badges. -/
theorem present_iff (hk : Keyed w.tanks) {id : UInt32} :
    w.Present id ↔ ∃ t ∈ w.tanks, t.id = id ∧ t.disconnected = false := by
  constructor
  · rintro ⟨b, hb, hplayer⟩
    obtain ⟨t, ht, rfl⟩ := Option.map_eq_some_iff.mp hb
    exact ⟨t, Table.mem_of_find? ht, Table.ident_of_find? ht, hplayer⟩
  · rintro ⟨t, ht, rfl, hplayer⟩
    exact ⟨t.badge, badge?_of_mem hk ht, hplayer⟩

/-- A tank that is there is flagged exactly if its player has gone. -/
theorem flagged_iff_of_mem (hk : Keyed w.tanks) {t : Tank K} (ht : t ∈ w.tanks) :
    w.Flagged t.id ↔ t.disconnected = true := by
  have hbadge := badge?_of_mem hk ht
  constructor
  · rintro ⟨b, hb, hgone⟩
    rw [hbadge, Option.some.injEq] at hb
    rw [← hb] at hgone
    exact hgone
  · intro hgone
    exact ⟨t.badge, hbadge, hgone⟩

/-! ## 3. Coming and going -/

theorem badge?_disconnect (id key : UInt32) (w : World K) :
    (w.disconnect key).badge? id
      = (w.badge? id).map fun b => if id = key then b.retire else b := by
  unfold badge? tank? disconnect
  rw [Table.find?_modify (f := Tank.disconnect) (fun _ => rfl), Option.map_map, Option.map_map]
  refine Option.map_congr fun t _ => ?_
  rw [Function.comp_apply, Function.comp_apply]
  split <;> rfl

/-- The players that have gone leave at a purge, and the others count as shown. -/
theorem badge?_purge (hk : Keyed w.tanks) (id : UInt32) :
    w.purge.1.badge? id = ((w.badge? id).filter fun b => !b.disconnected).map Badge.seen := by
  unfold badge? tank? purge
  dsimp only
  rw [Table.find?_map (f := fun t : Tank K => { t with joined := false }) (fun _ => rfl),
    Table.find?_filter hk]
  cases Table.find? id w.tanks with
  | none => rfl
  | some t =>
    have hgone : t.badge.disconnected = t.disconnected := rfl
    rw [Option.map_some, Option.filter_some, Option.filter_some, hgone]
    split <;> rfl

variable [Scalar K]

theorem badge?_join (id key : UInt32) (name : String) (w : World K) :
    (w.join key name).1.badge? id
      = if id = key ∧ w.badge? key = none then some (Badge.fresh key (Text.trim name))
        else w.badge? id := by
  rcases join_cases key name w with ⟨hused, hsame⟩ | ⟨hfree, hnew⟩
  · rw [hsame, if_neg fun h => (has_iff_badge? key w).mp hused h.2]
  · have hnone : w.badge? key = none := by
      by_contra h
      rw [(has_iff_badge? key w).mpr h] at hfree
      exact absurd hfree (by decide)
    rw [hnew]
    unfold badge? tank? at hnone ⊢
    dsimp only
    rw [Table.find?_put]
    by_cases hid : id = key
    · rw [if_pos (show id = Identified.ident (Tank.fresh key _ _) from hid), if_pos ⟨hid, hnone⟩]
      rfl
    · rw [if_neg (show ¬ id = Identified.ident (Tank.fresh key _ _) from hid),
        if_neg fun h => hid h.1]

/-- A join adds a tank exactly if there is none. -/
theorem join_added_iff (id : UInt32) (name : String) (w : World K) :
    (w.join id name).2 = true ↔ w.badge? id = none := by
  have hused := has_iff_badge? id w
  rcases join_cases id name w with ⟨hhas, hsame⟩ | ⟨hfree, hnew⟩
  · rw [hsame]
    exact iff_of_false Bool.false_ne_true (hused.mp hhas)
  · rw [hnew]
    refine iff_of_true rfl ?_
    by_contra h
    rw [hused.mpr h] at hfree
    exact absurd hfree (by decide)

/-- A join that adds no tank changes nothing. -/
theorem join_refused {id : UInt32} {name : String} {w : World K}
    (h : w.badge? id ≠ none) : w.join id name = (w, false) := by
  rcases join_cases id name w with ⟨_, hsame⟩ | ⟨hfree, _⟩
  · exact hsame
  · rw [(has_iff_badge? id w).mpr h] at hfree
    exact absurd hfree (by decide)

/-! ## 4. Orders and ticks -/

theorem badge?_command (hk : Keyed w.tanks) (id key : UInt32) (c : Command K) (now : Time) :
    (w.command key c now).1.badge? id = w.badge? id := by
  have hsame := Table.find?_of_forall₂ (fun _ b => b)
    (fun _ _ ho => Tank.Orders.id_eq ho) (fun _ _ ho => Tank.Orders.badge_eq ho)
    (command_tanks key c now hk) id
  rw [Option.map_id'] at hsame
  exact hsame

/-- **A tick gives points and touches nothing else of a badge.** -/
theorem badge?_tick (hk : Keyed w.tanks) (id : UInt32) (now : Time) :
    (w.tick now).badge? id = (w.badge? id).map (Badge.gain (w.points now id)) := by
  refine Table.find?_of_forall₂ (fun id => Badge.gain (w.points now id))
    (fun _ _ h => Ticked.id_eq h) ?_ (tick_tanks now hk) id
  rintro t u ⟨v, hchanges, rfl⟩
  rw [← Tank.Changes.badge_eq hchanges]
  rfl

end World

end TankArena
