import TankArena.Proofs.Registry
import TankArena.Proofs.World.Badges
import TankArena.Server

/-!
# Runs of a server

A server changes when it handles a message, when it ticks, and when one of its clients takes
something out of its mailbox or goes away.  An `Action` is any of these, and a run is a list of
actions.  Receivers may go at any time, so a broadcast may find any mailbox open, full or closed.

Nobody chooses the order in which a server visits what is in its world, so an action may also put
the world into another order: what is shown of all runs is shown of all orders.  The order in which
a broadcast finds the clients that are gone does not matter (`dropAll_perm`).

Whatever happens to a server happens to its world as a run of operations, up to a shuffle
(`act_world`), so every world of a server is reachable.  The rest of the file says what dropping
several clients does, which is the only part of a tick that is not an operation of the world alone.
-/

namespace TankArena.Server

variable {K : Type}

/-! ## 1. Dropping clients -/

theorem drop_world (id : UInt32) (s : Server K) : (s.drop id).world = s.world.disconnect id := rfl

theorem drop_clients (id : UInt32) (s : Server K) :
    (s.drop id).clients = (s.clients.remove id).1 := rfl

/-- The server without several clients. -/
def dropAll (s : Server K) (gone : List UInt32) : Server K := gone.foldl drop s

/-- Two clients may be dropped in either order. -/
theorem drop_comm (s : Server K) (id key : UInt32) :
    (s.drop id).drop key = (s.drop key).drop id := by
  have hworld : (s.world.disconnect id).disconnect key = (s.world.disconnect key).disconnect id :=
    congrArg (fun tanks => { s.world with tanks := tanks })
      (Table.modify_comm (f := Tank.disconnect) (fun _ => rfl) id key s.world.tanks)
  have hclients : ((s.clients.remove id).1.remove key).1 = ((s.clients.remove key).1.remove id).1 :=
    Registry.remove_comm id key s.clients
  unfold drop
  rw [hworld, hclients]

/-- **The order in which clients are dropped** does not matter. -/
theorem dropAll_perm {gone gone' : List UInt32} (h : gone.Perm gone') (s : Server K) :
    s.dropAll gone = s.dropAll gone' :=
  haveI : RightCommutative (drop (K := K)) := ⟨drop_comm⟩
  h.foldl_eq s

/-- Exactly the dropped are retired. -/
theorem dropAll_badge? (id : UInt32) (gone : List UInt32) (s : Server K) :
    (s.dropAll gone).world.badge? id
      = (s.world.badge? id).map fun b => if id ∈ gone then b.retire else b := by
  unfold dropAll
  induction gone generalizing s with
  | nil =>
    simp only [List.foldl_nil, List.not_mem_nil, if_false, Option.map_id']
  | cons key gone ih =>
    rw [List.foldl_cons, ih (s.drop key), drop_world, World.badge?_disconnect, Option.map_map]
    refine Option.map_congr fun b _ => ?_
    rw [Function.comp_apply]
    by_cases hkey : id = key
    · rw [if_pos hkey, if_pos (List.mem_cons.mpr (Or.inl hkey))]
      split <;> rfl
    · have hrest : id ∈ key :: gone ↔ id ∈ gone := by
        rw [List.mem_cons]
        exact or_iff_right hkey
      rw [if_neg hkey]
      by_cases hgone : id ∈ gone
      · rw [if_pos hgone, if_pos (hrest.mpr hgone)]
      · rw [if_neg hgone, if_neg (mt hrest.mp hgone)]

theorem dropAll_ids (gone : List UInt32) (s : Server K) :
    (s.dropAll gone).clients.ids = s.clients.ids.filter fun id => decide (id ∉ gone) := by
  unfold dropAll
  induction gone generalizing s with
  | nil => simp
  | cons key gone ih =>
    rw [List.foldl_cons, ih (s.drop key), drop_clients, Registry.ids_remove, List.filter_filter]
    refine List.filter_congr fun id _ => ?_
    rw [Bool.eq_iff_iff]
    simp [and_comm]

variable [Scalar K]

/-! ## 2. Actions -/

/-- What can happen to a server. -/
inductive Action (K : Type) where
  /-- A message is handled at an instant. -/
  | message (now : Time) (m : Message K)
  | tick (now : Time)
  /-- The receiver with a handle takes what it finds. -/
  | take (handle : Nat)
  /-- The receiver with a handle goes away. -/
  | hangUp (handle : Nat)
  /-- What is in the world is visited in another order from now on. -/
  | reorder (order : World.Reordering K)

/-- Whether the action is a tick. -/
def Action.isTick : Action K → Bool
  | .tick _ => true
  | _ => false

/-- The server after an action. -/
def act (s : Server K) : Action K → Server K
  | .message now m => s.handle now m
  | .tick now => s.runTick now
  | .take handle => { s with clients := (s.clients.take handle).1 }
  | .hangUp handle => { s with clients := (s.clients.hangUp handle).1 }
  | .reorder order => { s with world := order.apply s.world }

/-- The server after a run of actions. -/
def run (s : Server K) (actions : List (Action K)) : Server K := actions.foldl act s

/-- A server that has just begun, with the world of some settings. -/
def ofSettings (settings : Settings K) (source : Source) : Server K :=
  ofWorld (World.ofSettings settings source)

/-- Nobody is there when a server begins. -/
theorem ofSettings_badge? (settings : Settings K) (source : Source) (id : UInt32) :
    (ofSettings settings source).world.badge? id = none :=
  World.badge?_of_tanks_eq_nil (World.ofSettings_tanks settings source) id

theorem act_message (now : Time) (m : Message K) (s : Server K) :
    s.act (.message now m) = s.handle now m := rfl

theorem act_tick (now : Time) (s : Server K) : s.act (.tick now) = s.runTick now := rfl

theorem run_concat (s : Server K) (actions : List (Action K)) (a : Action K) :
    s.run (actions ++ [a]) = (s.run actions).act a :=
  List.foldl_concat act s a actions

/-- What every action keeps, a run keeps. -/
theorem run_invariant {I : Server K → Prop} (h : ∀ s a, I s → I (s.act a)) {s : Server K}
    (hs : I s) (actions : List (Action K)) : I (s.run actions) := by
  induction actions generalizing s with
  | nil => exact hs
  | cons a actions ih => exact ih (h s a hs)

/-! ## 3. Coming and going -/

/-- **A join under an id in use changes nothing.** -/
theorem handle_join_refused {s : Server K} {id : UInt32} (h : s.world.badge? id ≠ none)
    (now : Time) (name : String) (capacity : Nat) :
    s.handle now (.join id name capacity) = s := by
  simp only [handle, World.join_refused h, Bool.false_eq_true, if_false]

theorem handle_join_added {s : Server K} {id : UInt32} (h : s.world.badge? id = none)
    (now : Time) (name : String) (capacity : Nat) :
    s.handle now (.join id name capacity)
      = ⟨(s.world.join id name).1, (s.clients.add id capacity).1⟩ := by
  simp only [handle, (World.join_added_iff id name s.world).mpr h, if_true]

/-- The world of a server joins a player whether or not the player is new. -/
theorem handle_join_world (now : Time) (id : UInt32) (name : String) (capacity : Nat)
    (s : Server K) : (s.handle now (.join id name capacity)).world = (s.world.join id name).1 := by
  by_cases hfree : s.world.badge? id = none
  · rw [handle_join_added hfree]
  · rw [handle_join_refused hfree, World.join_refused hfree]

theorem handle_disconnect_badge? {s : Server K} {id : UInt32} {b : Tank.Badge}
    (h : s.world.badge? id = some b) (now : Time) :
    (s.handle now (.disconnect id)).world.badge? id = some b.retire := by
  have hdrop : s.handle now (.disconnect id) = s.drop id := rfl
  rw [hdrop, drop_world, World.badge?_disconnect, h, Option.map_some, if_pos rfl]

theorem handle_join_badge? {s : Server K} {id : UInt32} (h : s.world.badge? id = none)
    (now : Time) (name : String) (capacity : Nat) :
    (s.handle now (.join id name capacity)).world.badge? id
      = some (Tank.Badge.fresh id (Text.trim name)) := by
  rw [handle_join_world, World.badge?_join, if_pos ⟨rfl, h⟩]

/-! ## 4. What an action does to the world -/

theorem dropAll_world (gone : List UInt32) (s : Server K) :
    (s.dropAll gone).world = s.world.run (gone.map Operation.disconnect) := by
  unfold dropAll
  induction gone generalizing s with
  | nil => rfl
  | cons id gone ih => exact ih (s.drop id)

theorem handle_world (now : Time) (m : Message K) (s : Server K) :
    ∃ ops, (s.handle now m).world = s.world.run ops := by
  cases m with
  | join id name capacity => exact ⟨[.join id name], handle_join_world now id name capacity s⟩
  | command id c => exact ⟨[.command id c now], rfl⟩
  | disconnect id => exact ⟨[.disconnect id], rfl⟩

theorem runTick_world (now : Time) (s : Server K) :
    ∃ ops, (s.runTick now).world = s.world.run ops := by
  unfold runTick
  dsimp only
  split
  · exact ⟨[.tick now, .snapshot], rfl⟩
  · exact ⟨.tick now :: .snapshot :: s.clients.lost.map Operation.disconnect,
      dropAll_world s.clients.lost _⟩

/-- **Whatever happens to a server happens to its world** as a run of operations, up to a shuffle.
-/
theorem act_world (s : Server K) (a : Action K) :
    ∃ ops, (s.world.run ops).Shuffle (s.act a).world := by
  have hrun : (∃ ops, (s.act a).world = s.world.run ops) →
      ∃ ops, (s.world.run ops).Shuffle (s.act a).world := by
    rintro ⟨ops, hops⟩
    rw [hops]
    exact ⟨ops, World.Shuffle.refl _⟩
  cases a with
  | message now m => exact hrun (handle_world now m s)
  | tick now => exact hrun (runTick_world now s)
  | take handle => exact hrun ⟨[], rfl⟩
  | hangUp handle => exact hrun ⟨[], rfl⟩
  | reorder order => exact ⟨[], order.shuffle s.world⟩

theorem sound_act {s : Server K} (h : s.world.Sound) (a : Action K) : (s.act a).world.Sound := by
  obtain ⟨ops, hops⟩ := act_world s a
  exact (h.run ops).shuffle hops

theorem sound_run {s : Server K} (h : s.world.Sound) (actions : List (Action K)) :
    (s.run actions).world.Sound :=
  run_invariant (I := fun s => s.world.Sound) (fun _ a hs => sound_act hs a) h actions

/-- **Every world of a server is reachable.** -/
theorem reachable_run (settings : Settings K) (source : Source) (actions : List (Action K)) :
    World.Reachable settings source ((ofSettings settings source).run actions).world := by
  refine run_invariant (I := fun s => World.Reachable settings source s.world)
    (fun s a hs => ?_) World.Reachable.start actions
  obtain ⟨ops, hops⟩ := act_world s a
  exact (hs.run ops).shuffle hops

end TankArena.Server
