import TankArena.Proofs.Registry.Delivery
import TankArena.Proofs.Server.Life

/-!
# What a client sees of itself

A client that has joined gets snapshots until it leaves, but not every snapshot: its mailbox may be
full.  This file says what the snapshots in its mailbox say of the client's own tank: each has one
record of it, never as gone, and as just joined in the first one only.

Two stores have to be watched together.  The badge of the tank says "just joined" until the first
tick after the join, for all tanks at once; the mailbox takes the snapshot of a tick only if there
is room.  They fit because a mailbox that nothing was put into is empty: either the snapshot of the
first tick goes in, or that tick finds the receiver gone and drops the client, or the client was
dropped before (`Watched.tick`).

`queuedTo` are the snapshots that a run puts into a mailbox, read off the mailbox itself.
-/

namespace TankArena

open Table (Keyed)
open Tank (Badge)
open Registry (Call)

variable {K : Type}

/-! ## 1. A client through the dropping of others -/

/-- Only its registration is left to lose for a client when ids are removed. -/
theorem Subscription.foldl_follow_remove {M : Type} (handle : Nat) (gone : List UInt32)
    (c : Subscription M) :
    (gone.map Call.remove).foldl (Subscription.follow handle) c
      = { c with registered := c.registered && decide (c.id ∉ gone) } := by
  induction gone generalizing c with
  | nil => simp
  | cons id gone ih =>
    rw [List.map_cons, List.foldl_cons, ih]
    cases hregistered : c.registered <;> by_cases hid : c.id = id <;>
      simp [Subscription.follow, hregistered, hid]

namespace Server

theorem dropAll_clients (gone : List UInt32) (s : Server K) :
    (s.dropAll gone).clients = s.clients.run (gone.map Call.remove) := by
  unfold dropAll
  induction gone generalizing s with
  | nil => rfl
  | cons id gone ih => exact ih (s.drop id)

variable {s : Server K} {handle : Nat} {c : Subscription (List (Record K))}

/-- A client whose receiver has gone is lost. -/
theorem lost_of_gone (hc : s.clients.subscriptions[handle]? = some c)
    (hregistered : c.registered = true) (hgone : c.mailbox.listening = false) :
    c.id ∈ s.clients.lost :=
  Registry.mem_lost.mpr ⟨c, List.mem_of_getElem? hc, hregistered, rfl,
    (Registry.delivery_eq_closed_iff _).mpr hgone⟩

/-- A registered client has a tank whose player is there. -/
theorem Agrees.badge?_of_registered (h : s.Agrees)
    (hc : s.clients.subscriptions[handle]? = some c) (hregistered : c.registered = true) :
    ∃ b, s.world.badge? c.id = some b ∧ b.disconnected = false :=
  (h.mem_iff c.id).mp
    (Registry.mem_ids.mpr ⟨c, List.mem_of_getElem? hc, hregistered, rfl⟩)

theorem forall_not_tick_concat {actions : List (Action K)} {a : Action K} (ha : a.isTick = false) :
    (∀ a' ∈ actions ++ [a], a'.isTick = false) ↔ ∀ a' ∈ actions, a'.isTick = false := by
  simp only [List.mem_append, List.mem_singleton, or_imp, forall_and, forall_eq, ha, and_true]

theorem not_forall_not_tick (actions : List (Action K)) (now : Time) :
    ¬ ∀ a ∈ actions ++ [.tick now], a.isTick = false := by
  intro hall
  have htick : (Action.tick now : Action K).isTick = false := hall _ (by simp)
  exact absurd htick.symm Bool.false_ne_true

variable [Scalar K]

theorem runTick_clients (h : s.Agrees) (hk : Keyed s.world.tanks) (now : Time) :
    (s.runTick now).clients
      = (s.clients.call (.broadcast (s.snapshotAt now))).run (s.clients.lost.map Call.remove) := by
  rw [runTick_eq h hk, dropAll_clients]
  rfl

/-- **What a tick makes of a client.**  It gets the snapshot, if there is room for it, and is
dropped if its receiver has gone. -/
theorem getElem?_runTick (h : s.Agrees) (hk : Keyed s.world.tanks) (now : Time)
    (hc : s.clients.subscriptions[handle]? = some c) :
    (s.runTick now).clients.subscriptions[handle]?
      = some { c.receive (s.snapshotAt now) with
          registered := (c.receive (s.snapshotAt now)).registered &&
            decide ((c.receive (s.snapshotAt now)).id ∉ s.clients.lost) } := by
  rw [runTick_clients h hk,
    Registry.getElem?_run (Registry.getElem?_call hc (.broadcast (s.snapshotAt now))),
    Subscription.foldl_follow_remove]
  rfl

/-- A message to the server is at most one call on its registry. -/
theorem handle_clients (now : Time) (m : Message K) (s : Server K) :
    (s.handle now m).clients = s.clients ∨
      ∃ call : Call (List (Record K)), (s.handle now m).clients = s.clients.call call ∧
        call.isBroadcast = false := by
  cases m with
  | join id name capacity =>
    by_cases hfree : s.world.badge? id = none
    · rw [handle_join_added hfree]
      exact Or.inr ⟨.add id capacity, rfl, rfl⟩
    · rw [handle_join_refused hfree]
      exact Or.inl rfl
  | command id c => exact Or.inl rfl
  | disconnect id => exact Or.inr ⟨.remove id, rfl, rfl⟩

theorem act_clients (s : Server K) {a : Action K} (ha : a.isTick = false) :
    (s.act a).clients = s.clients ∨
      ∃ call : Call (List (Record K)), (s.act a).clients = s.clients.call call ∧
        call.isBroadcast = false := by
  cases a with
  | message now m => exact handle_clients now m s
  | tick now => exact absurd ha.symm Bool.false_ne_true
  | take handle => exact Or.inr ⟨.take handle, rfl, rfl⟩
  | hangUp handle => exact Or.inr ⟨.hangUp handle, rfl, rfl⟩
  | reorder order => exact Or.inl rfl

/-- **What becomes of a client between ticks.**  It may be dropped, and its mailbox emptied. -/
theorem getElem?_act (hc : s.clients.subscriptions[handle]? = some c) {a : Action K}
    (ha : a.isTick = false) :
    ∃ c', (s.act a).clients.subscriptions[handle]? = some c' ∧ c'.id = c.id ∧
      (c'.registered = true → c.registered = true) ∧
      c'.mailbox.capacity = c.mailbox.capacity ∧
      (c.mailbox.waiting = [] → c'.mailbox.waiting = []) := by
  rcases act_clients s ha with hsame | ⟨call, hcall, hother⟩
  · exact ⟨c, hsame ▸ hc, rfl, id, rfl, id⟩
  · refine ⟨c.follow handle call, hcall ▸ Registry.getElem?_call hc call, ?_⟩
    cases call with
    | add other capacity => exact ⟨rfl, id, rfl, id⟩
    | broadcast m => exact absurd hother.symm Bool.false_ne_true
    | remove other =>
      dsimp only [Subscription.follow]
      split <;> simp
    | take other | hangUp other =>
      dsimp only [Subscription.follow]
      split <;> simp +contextual [Mailbox.rest, Mailbox.close]

/-! ## 2. What is put into a mailbox -/

/-- The snapshots that an action puts at the end of the mailbox with a handle. -/
def queuedIn (handle : Nat) (s : Server K) (a : Action K) : List (List (Record K)) :=
  ((s.act a).clients.queue handle).drop (s.clients.queue handle).length

/-- The snapshots that a run puts into the mailbox with a handle, in order. -/
def queuedTo (handle : Nat) (s : Server K) : List (Action K) → List (List (Record K))
  | [] => []
  | a :: actions => s.queuedIn handle a ++ (s.act a).queuedTo handle actions

theorem queuedTo_append (handle : Nat) (s : Server K) (before after : List (Action K)) :
    s.queuedTo handle (before ++ after)
      = s.queuedTo handle before ++ (s.run before).queuedTo handle after := by
  induction before generalizing s with
  | nil => rfl
  | cons a before ih =>
    have hrun : s.run (a :: before) = (s.act a).run before := rfl
    rw [List.cons_append, queuedTo, queuedTo, ih, hrun, List.append_assoc]

theorem queuedTo_concat (handle : Nat) (s : Server K) (actions : List (Action K)) (a : Action K) :
    s.queuedTo handle (actions ++ [a])
      = s.queuedTo handle actions ++ (s.run actions).queuedIn handle a := by
  rw [queuedTo_append, queuedTo, queuedTo, List.append_nil]

/-- Only a tick sends. -/
theorem queuedIn_of_not_tick (handle : Nat) (s : Server K) {a : Action K}
    (ha : a.isTick = false) : s.queuedIn handle a = [] := by
  unfold queuedIn
  rcases act_clients s ha with hsame | ⟨call, hcall, hother⟩
  · rw [hsame, List.drop_length]
  · rw [hcall, Registry.drop_queue_call]
    cases call with
    | broadcast records => exact absurd hother.symm Bool.false_ne_true
    | add | remove | take | hangUp => rfl

theorem queuedTo_of_no_tick {actions : List (Action K)} (h : ∀ a ∈ actions, a.isTick = false) :
    s.queuedTo handle actions = [] := by
  induction actions generalizing s with
  | nil => rfl
  | cons a actions ih =>
    rw [queuedTo, queuedIn_of_not_tick handle s (h a List.mem_cons_self),
      ih fun a' ha' => h a' (List.mem_cons_of_mem a ha'), List.append_nil]

/-- A tick puts its snapshot into the mailboxes of the registered clients that are there and have
room. -/
theorem queuedIn_tick (h : s.Agrees) (hk : Keyed s.world.tanks) (now : Time)
    (hc : s.clients.subscriptions[handle]? = some c) :
    s.queuedIn handle (.tick now)
      = if c.registered && c.mailbox.listening &&
          decide (c.mailbox.waiting.length < c.mailbox.capacity)
        then [s.snapshotAt now] else [] := by
  have hqueue : (s.runTick now).clients.queue handle
      = (s.clients.call (.broadcast (s.snapshotAt now))).queue handle := by
    rw [Registry.queue_of_some (getElem?_runTick h hk now hc),
      Registry.queue_of_some (Registry.getElem?_call hc _)]
    rfl
  unfold queuedIn
  rw [act_tick, hqueue, Registry.drop_queue_call]
  simp only [Registry.acceptedBy, Registry.isOpen_of_some hc, Registry.isFull_of_some hc]
  by_cases hroom : c.mailbox.waiting.length < c.mailbox.capacity
  · simp [hroom, Nat.not_le_of_lt hroom]
  · simp [hroom, Nat.le_of_not_lt hroom]

/-! ## 3. One client along a run -/

variable {id : UInt32} {capacity : Nat} {actions : List (Action K)} {a : Action K}

/-- What a run after its join has made of a client. -/
structure Watched (id : UInt32) (handle capacity : Nat) (s : Server K) (actions : List (Action K))
    (c : Subscription (List (Record K))) : Prop where
  there : (s.run actions).clients.subscriptions[handle]? = some c
  id_eq : c.id = id
  /-- The badge of a registered client tells whether a snapshot was built since the join. -/
  joined_iff : c.registered = true → ∀ b, (s.run actions).world.badge? id = some b →
    (b.joined = true ↔ ∀ a ∈ actions, a.isTick = false)
  /-- Until then nothing was put into the mailbox. -/
  untouched : (∀ a ∈ actions, a.isTick = false) →
    c.mailbox.waiting = [] ∧ c.mailbox.capacity = capacity
  /-- A client that a tick has left registered was sent a snapshot. -/
  begun : c.registered = true → s.queuedTo handle actions = [] → ∀ a ∈ actions, a.isTick = false
  /-- Each snapshot that was sent shows the client's tank, and the first one as just joined. -/
  shown : ∀ i records, (s.queuedTo handle actions)[i]? = some records →
    ∃ r, tankRecords id records = [r] ∧ r.disconnected = false ∧ (r.joined = true ↔ i = 0)

/-- A registered client that has been sent nothing has not seen a tick, and the other way round. -/
theorem Watched.queuedTo_eq_nil_iff (h : Watched id handle capacity s actions c)
    (hregistered : c.registered = true) :
    s.queuedTo handle actions = [] ↔ ∀ a ∈ actions, a.isTick = false :=
  ⟨h.begun hregistered, queuedTo_of_no_tick⟩

/-- Between ticks a client is sent nothing, and its badge says what it said. -/
theorem Watched.act (h : Watched id handle capacity s actions c) (hagrees : (s.run actions).Agrees)
    (hk : Keyed (s.run actions).world.tanks) (ha : a.isTick = false) :
    ∃ c', Watched id handle capacity s (actions ++ [a]) c' := by
  obtain ⟨c', hc', hid, hregistered, hcapacity, hwaiting⟩ := getElem?_act h.there ha
  have hnone : s.queuedTo handle (actions ++ [a]) = s.queuedTo handle actions := by
    rw [queuedTo_concat, queuedIn_of_not_tick handle _ ha, List.append_nil]
  refine ⟨c', ?_, hid.trans h.id_eq, fun hc b' hb' => ?_, fun hall => ?_, fun hc hempty => ?_, ?_⟩
  · rw [run_concat]
    exact hc'
  · obtain ⟨b, hb, -⟩ := hagrees.badge?_of_registered h.there (hregistered hc)
    rw [h.id_eq] at hb
    have hbadge := act_badge? hk ha fun now name other _ =>
      congrArg Prod.snd (World.join_refused (by rw [hb]; exact Option.some_ne_none b))
    rw [← run_concat, hb, hb'] at hbadge
    have hjoined : b'.joined = b.joined := by
      rcases hbadge with hsame | hretired
      · rw [Option.some.inj hsame]
      · rw [Option.some.inj hretired, Badge.retire_joined]
    rw [hjoined, h.joined_iff (hregistered hc) b hb, forall_not_tick_concat ha]
  · obtain ⟨hempty, hroom⟩ := h.untouched ((forall_not_tick_concat ha).mp hall)
    exact ⟨hwaiting hempty, hcapacity.trans hroom⟩
  · rw [forall_not_tick_concat ha]
    exact h.begun (hregistered hc) (hnone ▸ hempty)
  · rw [hnone]
    exact h.shown

/-- What a snapshot of the next tick shows of a registered client: its tank, and as just joined if
the client has been sent nothing yet. -/
theorem Watched.shown_next (h : Watched id handle capacity s actions c)
    (hsound : (s.run actions).world.Sound) (hagrees : (s.run actions).Agrees)
    (hregistered : c.registered = true) (now : Time) :
    ∃ r, tankRecords id ((s.run actions).snapshotAt now) = [r] ∧ r.disconnected = false ∧
      (r.joined = true ↔ s.queuedTo handle actions = []) := by
  obtain ⟨b, hb, hplayer⟩ := hagrees.badge?_of_registered h.there hregistered
  rw [h.id_eq] at hb
  obtain ⟨t, -, hbadge, hshown⟩ := shown_of_badge hsound hb now
  have hjoined : t.record.joined = b.joined :=
    (congrArg Badge.joined hbadge).trans (Badge.gain_joined _ b)
  have hgone : t.record.disconnected = b.disconnected :=
    (congrArg Badge.disconnected hbadge).trans (Badge.gain_disconnected _ b)
  refine ⟨t.record, hshown, hgone.trans hplayer, ?_⟩
  rw [hjoined, h.joined_iff hregistered b hb, h.queuedTo_eq_nil_iff hregistered]

/-- **A tick sends its snapshot to a client that is there and has room.**  If that is the first
snapshot sent to the client it is the first one since the join: before it the mailbox was empty. -/
theorem Watched.tick (h : Watched id handle capacity s actions c)
    (hsound : (s.run actions).world.Sound) (hagrees : (s.run actions).Agrees)
    (hcapacity : 0 < capacity) (now : Time) :
    ∃ c', Watched id handle capacity s (actions ++ [.tick now]) c' := by
  have hafter := getElem?_runTick hagrees hsound.keyed now h.there
  have hreceive : (c.receive ((s.run actions).snapshotAt now)).id = c.id ∧
      (c.receive ((s.run actions).snapshotAt now)).registered = c.registered := by
    rw [Subscription.receive_eq]
    split_ifs <;> exact ⟨rfl, rfl⟩
  have hqueued := queuedTo_concat handle s actions (.tick now)
  rw [queuedIn_tick hagrees hsound.keyed now h.there] at hqueued
  have hrun : s.run (actions ++ [.tick now]) = (s.run actions).runTick now :=
    run_concat s actions (.tick now)
  rw [hreceive.1, hreceive.2, ← hrun] at hafter
  refine ⟨_, hafter, hreceive.1.trans h.id_eq, fun _ b' hb' => ?_,
    fun hall => absurd hall (not_forall_not_tick actions now), fun hc hempty => ?_, ?_⟩
  · rw [hrun, runTick_badge? hagrees hsound.keyed] at hb'
    obtain ⟨b, -, rfl⟩ := Option.map_eq_some_iff.mp hb'
    refine iff_of_false ?_ (not_forall_not_tick actions now)
    split <;> simp
  · obtain ⟨hregistered, hkept⟩ : c.registered = true ∧ c.id ∉ (s.run actions).clients.lost := by
      simpa using hc
    rw [hqueued, List.append_eq_nil_iff] at hempty
    have hthere : c.mailbox.listening = true := by
      by_contra hgone
      exact hkept (lost_of_gone h.there hregistered (Bool.not_eq_true _ ▸ hgone))
    obtain ⟨hwaiting, hroom⟩ := h.untouched (h.begun hregistered hempty.1)
    simp [hregistered, hthere, hwaiting, hroom, hcapacity] at hempty
  · intro i records hi
    rw [hqueued, List.getElem?_append] at hi
    split at hi
    · exact h.shown i records hi
    · rename_i hlast
      split at hi
      · rename_i hsent
        obtain ⟨hzero, rfl⟩ : i - (s.queuedTo handle actions).length = 0 ∧
            (s.run actions).snapshotAt now = records := by
          simpa [List.getElem?_singleton] using hi
        have hregistered : c.registered = true := by
          simp only [Bool.and_eq_true] at hsent
          exact hsent.1.1
        obtain ⟨r, hr, hplayer, hjoined⟩ := h.shown_next hsound hagrees hregistered now
        refine ⟨r, hr, hplayer, hjoined.trans ?_⟩
        rw [← List.length_eq_zero_iff]
        omega
      · cases hi

/-- A client that has just joined. -/
theorem watched_nil (hc : s.clients.subscriptions[handle]?
      = some ⟨id, Mailbox.fresh capacity, true, 0⟩)
    (hjoined : ∀ b, s.world.badge? id = some b → b.joined = true) :
    Watched id handle capacity s [] ⟨id, Mailbox.fresh capacity, true, 0⟩ where
  there := hc
  id_eq := rfl
  joined_iff := fun _ b hb => iff_of_true (hjoined b hb) fun a ha => absurd ha List.not_mem_nil
  untouched := fun _ => ⟨rfl, rfl⟩
  begun := fun _ _ a ha => absurd ha List.not_mem_nil
  shown := fun i records hi => by simp [queuedTo] at hi

/-- **What a run makes of a client.**  By induction on the run, its last action first. -/
theorem watched_run (hsound : s.world.Sound) (hagrees : s.Agrees) (hcapacity : 0 < capacity)
    (hc : s.clients.subscriptions[handle]? = some ⟨id, Mailbox.fresh capacity, true, 0⟩)
    (hjoined : ∀ b, s.world.badge? id = some b → b.joined = true) (actions : List (Action K)) :
    ∃ c, Watched id handle capacity s actions c := by
  induction actions using List.reverseRecOn with
  | nil => exact ⟨_, watched_nil hc hjoined⟩
  | append_singleton actions a ih =>
    obtain ⟨c, hwatched⟩ := ih
    have hsound' : (s.run actions).world.Sound := sound_run hsound actions
    have hagrees' : (s.run actions).Agrees := agrees_run hagrees hsound actions
    cases a with
    | tick now => exact hwatched.tick hsound' hagrees' hcapacity now
    | message | take | hangUp | reorder => exact hwatched.act hagrees' hsound'.keyed rfl

/-! ## 4. From the join on -/

/-- **Every snapshot that a client gets shows the client.**  After a join that added a tank, with a
mailbox for at least one snapshot, whatever happens then, and in whatever order the world is
visited:

* each snapshot that is put into the mailbox has exactly one record of the client's tank, and it
  does not say that the player has gone; it says that the player has just joined if the snapshot is
  the first one put there, and otherwise not;
* if the client is registered and its receiver there when the first tick comes, the snapshot of
  that tick is the first one. -/
theorem own_record_in_every_snapshot (settings : Settings K) (source : Source)
    (before : List (Action K)) (joinedAt : Time) (id : UInt32) (name : String) (capacity : Nat)
    (actions : List (Action K))
    (hadded : (((ofSettings settings source).run before).world.join id name).2 = true)
    (hcapacity : 0 < capacity) :
    let s := ((ofSettings settings source).run before).handle joinedAt (.join id name capacity)
    let handle := ((ofSettings settings source).run before).clients.subscriptions.length
    s.clients.subscriptions[handle]? = some ⟨id, Mailbox.fresh capacity, true, 0⟩ ∧
    (∀ i records, (s.queuedTo handle actions)[i]? = some records →
      ∃ r, tankRecords id records = [r] ∧ r.disconnected = false ∧ (r.joined = true ↔ i = 0)) ∧
    (∀ between now after, actions = between ++ .tick now :: after →
      (∀ a ∈ between, a.isTick = false) → (s.run between).clients.isOpen handle = true →
      (s.queuedTo handle actions)[0]? = some ((s.run between).snapshotAt now)) := by
  intro s handle
  obtain ⟨hsound₀, hagrees₀⟩ := reached settings source before
  have hfree : ((ofSettings settings source).run before).world.badge? id = none :=
    (World.join_added_iff id name _).mp hadded
  have hsound : s.world.Sound := sound_act hsound₀ (.message joinedAt (.join id name capacity))
  have hagrees : s.Agrees := hagrees₀.handle hsound₀ joinedAt (.join id name capacity)
  have hjoined : ∀ b, s.world.badge? id = some b → b.joined = true := by
    intro b hb
    rw [handle_join_badge? hfree joinedAt name capacity] at hb
    rw [← Option.some.inj hb]
    rfl
  have hclient : s.clients.subscriptions[handle]? = some ⟨id, Mailbox.fresh capacity, true, 0⟩ := by
    have hunused : ((ofSettings settings source).run before).clients.contains id = false := by
      rw [Bool.eq_false_iff, Ne, Registry.contains_iff, hagrees₀.mem_iff id]
      exact World.not_present_of_badge?_eq_none hfree
    have hs : s = _ := handle_join_added hfree joinedAt name capacity
    rw [hs]
    simp [Registry.add, handle, hunused]
  have hwatched := watched_run hsound hagrees hcapacity hclient hjoined
  refine ⟨hclient, fun i records hi => ?_, ?_⟩
  · obtain ⟨c, hc⟩ := hwatched actions
    exact hc.shown i records hi
  · rintro between now after rfl hbetween hopen
    obtain ⟨c, hc⟩ := hwatched between
    obtain ⟨hempty, hroom⟩ := hc.untouched hbetween
    rw [Registry.isOpen_of_some hc.there] at hopen
    have hsent : (s.run between).queuedIn handle (.tick now) = [(s.run between).snapshotAt now] := by
      rw [queuedIn_tick (agrees_run hagrees hsound between) (sound_run hsound between).keyed now
        hc.there, hopen, hempty, hroom]
      simp [hcapacity]
    rw [queuedTo_append, queuedTo_of_no_tick hbetween, queuedTo, hsent]
    rfl

/-- A mailbox for one snapshot, two ticks, and another order of the world before them: the snapshot
of the first tick is there, and says that the player has just joined. -/
theorem own_record_in_every_snapshot_first_tick :
    let order : World.Reordering Float := ⟨World.turned, World.shuffle_turned⟩
    ∃ records r, (((((ofSettings {} (Source.ofSeed 0) : Server Float).run []).handle 1
        (.join 7 " ada " 1)).queuedTo 0
          [.message 2 (.disconnect 8), .reorder order, .tick 3, .tick 4])[0]? = some records) ∧
      tankRecords 7 records = [r] ∧ r.disconnected = false ∧ r.joined = true := by
  intro order
  have hfree : ((ofSettings {} (Source.ofSeed 0) : Server Float).run []).world.badge? 7 = none :=
    ofSettings_badge? {} (Source.ofSeed 0) 7
  have hadded := (World.join_added_iff 7 " ada " _).mpr hfree
  obtain ⟨hclient, hshown, hfirst⟩ := own_record_in_every_snapshot {} (Source.ofSeed 0) [] 1 7
    " ada " 1 [.message 2 (.disconnect 8), .reorder order, .tick 3, .tick 4] hadded (by decide)
  have hopen := Registry.isOpen_of_some
    (Registry.getElem?_call hclient (.remove 8))
  have hsent := hfirst [.message 2 (.disconnect 8), .reorder order] 3 [.tick 4] rfl
    (by simp [Action.isTick]) hopen
  obtain ⟨r, hr, hplayer, hjoined⟩ := hshown 0 _ hsent
  exact ⟨_, r, hsent, hr, hplayer, hjoined.mpr rfl⟩

end Server

end TankArena
