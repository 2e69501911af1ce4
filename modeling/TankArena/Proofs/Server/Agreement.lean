import TankArena.Proofs.Server.Run

/-!
# The registry and the world agree

A server keeps two lists of players: the clients it sends to and the tanks of its world.  They are
changed at different places: a join adds to both, a disconnect message flags a tank and takes the
client out, a purge takes flagged tanks out, and a broadcast that finds a mailbox closed drops its
client after the purge.  `Agrees` says that the registered clients are exactly the players who are
present, and this file shows

* that every action keeps the agreement (`Agrees.act`);
* that under it a tick never skips a client (`runTick_eq`): the tick that sends nothing is the tick
  that has nobody to send to;
* that the tanks a tick leaves flagged are those of the clients it has just lost, and that the next
  tick takes them out (`registry_agrees`).
-/

namespace TankArena

open Table (Keyed)
open Tank (Badge)

variable {K : Type}

/-! ## 1. Who is present -/

namespace World

variable {w : World K} {id : UInt32}

theorem not_present_of_badge?_eq_none (h : w.badge? id = none) : ¬ w.Present id := by
  rintro ⟨b, hb, -⟩
  rw [h] at hb
  exact Option.some_ne_none b hb.symm

/-- A purge takes out the flagged only. -/
theorem present_purge (hk : Keyed w.tanks) : w.purge.1.Present id ↔ w.Present id := by
  unfold Present
  rw [badge?_purge hk]
  constructor
  · rintro ⟨b, hb, -⟩
    obtain ⟨b', hb', rfl⟩ := Option.map_eq_some_iff.mp hb
    obtain ⟨hsome, hplayer⟩ := Option.filter_eq_some_iff.mp hb'
    exact ⟨b', hsome, by simpa using hplayer⟩
  · rintro ⟨b, hb, hplayer⟩
    refine ⟨b.seen, ?_, hplayer⟩
    rw [hb, Option.filter_some, if_pos (by rw [hplayer]; rfl), Option.map_some]

theorem flagged_disconnect {key : UInt32} (h : w.Flagged id) : (w.disconnect key).Flagged id := by
  obtain ⟨b, hb, hgone⟩ := h
  unfold Flagged
  rw [badge?_disconnect, hb, Option.map_some]
  by_cases hkey : id = key
  · exact ⟨b.retire, by rw [if_pos hkey], rfl⟩
  · exact ⟨b, by rw [if_neg hkey], hgone⟩

/-- A snapshot of a world with a tank is not empty. -/
theorem records_ne_nil (h : w.badge? id ≠ none) : w.records ≠ [] := by
  obtain ⟨b, hb⟩ := Option.ne_none_iff_exists'.mp h
  obtain ⟨t, ht, -⟩ := Option.map_eq_some_iff.mp hb
  have hmem : Record.tank t.record ∈ w.records := by
    unfold records
    simp only [List.mem_append]
    exact Or.inl (Or.inl (Or.inl (List.mem_map_of_mem (Table.mem_of_find? ht))))
  exact List.ne_nil_of_mem hmem

variable [Scalar K]

theorem present_tick (hk : Keyed w.tanks) (now : Time) :
    (w.tick now).Present id ↔ w.Present id := by
  unfold Present
  rw [badge?_tick hk]
  constructor
  · rintro ⟨b, hb, hplayer⟩
    obtain ⟨b', hb', rfl⟩ := Option.map_eq_some_iff.mp hb
    exact ⟨b', hb', hplayer⟩
  · rintro ⟨b, hb, hplayer⟩
    exact ⟨b.gain (w.points now id), by rw [hb, Option.map_some], hplayer⟩

theorem present_join {key : UInt32} {name : String} (hfree : w.badge? key = none) :
    (w.join key name).1.Present id ↔ w.Present id ∨ id = key := by
  unfold Present
  rw [badge?_join]
  by_cases hid : id = key
  · rw [if_pos ⟨hid, hfree⟩]
    exact iff_of_true ⟨_, rfl, rfl⟩ (Or.inr hid)
  · rw [if_neg fun h => hid h.1, or_iff_left hid]

end World

namespace Server

/-! ## 2. Agreement -/

/-- The registered clients are exactly the players who are present. -/
structure Agrees (s : Server K) : Prop where
  nodup : s.clients.ids.Nodup
  mem_iff : ∀ id, id ∈ s.clients.ids ↔ s.world.Present id

/-- Dropping clients takes them out on both sides. -/
theorem present_dropAll {id : UInt32} {gone : List UInt32} {s : Server K} :
    (s.dropAll gone).world.Present id ↔ s.world.Present id ∧ id ∉ gone := by
  unfold World.Present
  rw [dropAll_badge?]
  constructor
  · rintro ⟨b, hb, hplayer⟩
    obtain ⟨b', hb', rfl⟩ := Option.map_eq_some_iff.mp hb
    by_cases hgone : id ∈ gone
    · rw [if_pos hgone] at hplayer
      exact absurd hplayer (by simp [Badge.retire])
    · rw [if_neg hgone] at hplayer
      exact ⟨⟨b', hb', hplayer⟩, hgone⟩
  · rintro ⟨⟨b, hb, hplayer⟩, hgone⟩
    exact ⟨b, by rw [hb, Option.map_some, if_neg hgone], hplayer⟩

theorem Agrees.dropAll {s : Server K} (h : s.Agrees) (gone : List UInt32) :
    (s.dropAll gone).Agrees where
  nodup := by
    rw [dropAll_ids]
    exact h.nodup.filter _
  mem_iff := by
    intro id
    rw [dropAll_ids, List.mem_filter, decide_eq_true_iff, present_dropAll, h.mem_iff id]

/-- A change that moves no id in or out on either side keeps the agreement. -/
theorem Agrees.congr {s s' : Server K} (h : s.Agrees) (hids : s'.clients.ids = s.clients.ids)
    (hpresent : ∀ id, s'.world.Present id ↔ s.world.Present id) : s'.Agrees where
  nodup := hids ▸ h.nodup
  mem_iff := fun id => by rw [hids, h.mem_iff id, hpresent id]

theorem agrees_ofWorld {w : World K} (h : w.tanks = []) : (ofWorld w).Agrees where
  nodup := List.nodup_nil
  mem_iff := fun id =>
    iff_of_false List.not_mem_nil
      (World.not_present_of_badge?_eq_none (World.badge?_of_tanks_eq_nil h id))

variable [Scalar K] {s : Server K}

/-! ## 3. Ticks -/

/-- **Under agreement a tick skips nobody.**  It moves the world on, purges it, sends to everybody,
and drops the clients it finds lost. -/
theorem runTick_eq (h : s.Agrees) (hk : Keyed s.world.tanks) (now : Time) :
    s.runTick now
      = dropAll ⟨(s.world.tick now).purge.1,
          (s.clients.broadcast (s.world.tick now).records).1⟩ s.clients.lost := by
  have hunfold : s.runTick now
      = if (s.world.tick now).records.isEmpty || s.clients.size == 0 then
          { s with world := (s.world.tick now).purge.1 }
        else
          dropAll ⟨(s.world.tick now).purge.1,
            (s.clients.broadcast (s.world.tick now).records).1⟩ s.clients.lost := rfl
  rw [hunfold]
  cases hids : s.clients.ids with
  | nil =>
    have hnobody := Registry.broadcast_of_ids_eq_nil hids (s.world.tick now).records
    have hlost : s.clients.lost = [] := by
      rw [← Registry.broadcast_snd (s.world.tick now).records, hnobody]
    rw [hnobody, hlost]
    split <;> rfl
  | cons id ids =>
    -- Somebody is registered, so a tank is there and the snapshot shows it.
    have hmem : id ∈ s.clients.ids := hids ▸ List.mem_cons_self
    obtain ⟨b, hb, -⟩ := (World.present_tick hk now).mpr ((h.mem_iff id).mp hmem)
    have hshown : (s.world.tick now).records ≠ [] :=
      World.records_ne_nil (Option.ne_none_iff_exists'.mpr ⟨b, hb⟩)
    have hsome : s.clients.size ≠ 0 := by
      rw [Registry.size_eq, hids]
      exact Nat.succ_ne_zero _
    rw [if_neg (by simp [hshown, hsome])]

/-- **What a tick makes of a badge.**  Points, then the purge, then the flag of a lost client. -/
theorem runTick_badge? (h : s.Agrees) (hk : Keyed s.world.tanks) (now : Time) (id : UInt32) :
    (s.runTick now).world.badge? id
      = (((s.world.badge? id).map (Badge.gain (s.world.points now id))).filter
          fun b => !b.disconnected).map
            fun b => if id ∈ s.clients.lost then b.seen.retire else b.seen := by
  rw [runTick_eq h hk, dropAll_badge?, World.badge?_purge (World.tick_keyed now hk),
    World.badge?_tick hk, Option.map_map]
  rfl

/-- A tick keeps the agreement. -/
theorem Agrees.runTick (h : s.Agrees) (hsound : s.world.Sound) (now : Time) :
    (s.runTick now).Agrees := by
  rw [runTick_eq h hsound.keyed]
  refine Agrees.dropAll (h.congr (Registry.ids_broadcast _ _) fun id => ?_) s.clients.lost
  have hpurge : (s.world.tick now).purge.1.Present id ↔ (s.world.tick now).Present id :=
    World.present_purge (World.tick_keyed now hsound.keyed)
  exact hpurge.trans (World.present_tick hsound.keyed now)

/-! ## 4. Messages and runs -/

theorem Agrees.handle (h : s.Agrees) (hsound : s.world.Sound) (now : Time) (m : Message K) :
    (s.handle now m).Agrees := by
  cases m with
  | join id name capacity =>
    by_cases hfree : s.world.badge? id = none
    · have hnew : id ∉ s.clients.ids := by
        rw [h.mem_iff id]
        exact World.not_present_of_badge?_eq_none hfree
      rw [handle_join_added hfree]
      refine ⟨?_, fun other => ?_⟩
      · rw [Registry.ids_add hnew]
        exact List.nodup_append.mpr ⟨h.nodup, List.nodup_singleton id, fun a ha b hb hab =>
          hnew (List.mem_singleton.mp hb ▸ hab ▸ ha)⟩
      · rw [Registry.ids_add hnew, List.mem_append, List.mem_singleton, h.mem_iff other,
          World.present_join hfree]
    · rw [handle_join_refused hfree]
      exact h
  | command id c =>
    refine h.congr rfl fun other => ?_
    have hsame : (s.handle now (.command id c)).world.badge? other = s.world.badge? other :=
      World.badge?_command hsound.keyed other id c now
    unfold World.Present
    rw [hsame]
  | disconnect id => exact h.dropAll [id]

/-- **Every action keeps the agreement.** -/
theorem Agrees.act (h : s.Agrees) (hsound : s.world.Sound) (a : Action K) : (s.act a).Agrees := by
  cases a with
  | message now m => exact h.handle hsound now m
  | tick now => exact h.runTick hsound now
  | take handle => exact h.congr (Registry.ids_modifyMailbox handle _ _) fun _ => Iff.rfl
  | hangUp handle => exact h.congr (Registry.ids_modifyMailbox handle _ _) fun _ => Iff.rfl
  | reorder order =>
    refine h.congr rfl fun other => ?_
    have hsame : (s.act (.reorder order)).world.badge? other = s.world.badge? other :=
      (order.shuffle s.world).badge?_eq hsound.keyed other
    unfold World.Present
    rw [hsame]

theorem agrees_run (h : s.Agrees) (hsound : s.world.Sound) (actions : List (Action K)) :
    (s.run actions).Agrees := by
  have hboth := run_invariant (I := fun s : Server K => s.world.Sound ∧ s.Agrees)
    (fun _ a hs => ⟨sound_act hs.1 a, hs.2.act hs.1 a⟩) ⟨hsound, h⟩ actions
  exact hboth.2

/-- What holds of a server whenever it is looked at. -/
theorem reached (settings : Settings K) (source : Source) (actions : List (Action K)) :
    ((ofSettings settings source).run actions).world.Sound ∧
      ((ofSettings settings source).run actions).Agrees := by
  have hsound : (ofSettings settings source).world.Sound := World.sound_ofSettings settings source
  have hagrees : (ofSettings settings source).Agrees :=
    agrees_ofWorld (World.ofSettings_tanks settings source)
  exact ⟨(reachable_run settings source actions).sound, agrees_run hagrees hsound actions⟩

/-! ## 5. Flagged tanks -/

/-- **The flagged after a tick.**  They are those whose clients the tick has lost. -/
theorem flagged_runTick_iff (h : s.Agrees) (hk : Keyed s.world.tanks) (now : Time) (id : UInt32) :
    (s.runTick now).world.Flagged id ↔ id ∈ s.clients.lost := by
  unfold World.Flagged
  rw [runTick_badge? h hk]
  constructor
  · rintro ⟨b, hb, hgone⟩
    by_contra hkept
    obtain ⟨b', hb', rfl⟩ := Option.map_eq_some_iff.mp hb
    obtain ⟨-, hplayer⟩ := Option.filter_eq_some_iff.mp hb'
    rw [if_neg hkept] at hgone
    have hgone' : b'.disconnected = true := hgone
    rw [hgone'] at hplayer
    exact absurd hplayer (by decide)
  · intro hlost
    obtain ⟨c, hc, hregistered, hid, -⟩ := Registry.mem_lost.mp hlost
    have hmem : id ∈ s.clients.ids := Registry.mem_ids.mpr ⟨c, hc, hregistered, hid⟩
    obtain ⟨b, hb, hplayer⟩ := (h.mem_iff id).mp hmem
    refine ⟨(b.gain (s.world.points now id)).seen.retire, ?_, rfl⟩
    rw [hb, Option.map_some, Option.filter_some, if_pos (by simp [hplayer]), Option.map_some,
      if_pos hlost]

/-- Between ticks the flagged stay where they are. -/
theorem flagged_act {id : UInt32} (hflagged : s.world.Flagged id) (hk : Keyed s.world.tanks)
    {a : Action K} (ha : a.isTick = false) : (s.act a).world.Flagged id := by
  cases a with
  | message now m =>
    cases m with
    | join key name capacity =>
      rw [act_message, handle_join_world]
      obtain ⟨b, hb, hgone⟩ := hflagged
      refine ⟨b, ?_, hgone⟩
      rw [World.badge?_join, if_neg, hb]
      rintro ⟨rfl, hnone⟩
      rw [hb] at hnone
      exact Option.some_ne_none b hnone
    | command key c =>
      obtain ⟨b, hb, hgone⟩ := hflagged
      exact ⟨b, (World.badge?_command hk id key c now).trans hb, hgone⟩
    | disconnect key => exact World.flagged_disconnect hflagged
  | tick now => exact absurd ha (by simp [Action.isTick])
  | take handle => exact hflagged
  | hangUp handle => exact hflagged
  | reorder order =>
    obtain ⟨b, hb, hgone⟩ := hflagged
    exact ⟨b, ((order.shuffle s.world).badge?_eq hk id).trans hb, hgone⟩

theorem flagged_run {id : UInt32} (hflagged : s.world.Flagged id) (hsound : s.world.Sound)
    {between : List (Action K)} (hbetween : ∀ a ∈ between, a.isTick = false) :
    (s.run between).world.Flagged id := by
  induction between generalizing s with
  | nil => exact hflagged
  | cons a between ih =>
    have ha : a.isTick = false := hbetween a List.mem_cons_self
    exact ih (flagged_act hflagged hsound.keyed ha) (sound_act hsound a)
      fun a' ha' => hbetween a' (List.mem_cons_of_mem a ha')

/-- A tick takes the flagged out. -/
theorem runTick_badge?_of_flagged (h : s.Agrees) (hk : Keyed s.world.tanks) {id : UInt32}
    (hflagged : s.world.Flagged id) (now : Time) : (s.runTick now).world.badge? id = none := by
  obtain ⟨b, hb, hgone⟩ := hflagged
  rw [runTick_badge? h hk, hb, Option.map_some, Option.filter_some, if_neg (by simp [hgone]),
    Option.map_none]

/-- **A flagged tank is gone after the next tick**, whatever happens before it. -/
theorem gone_after_tick (h : s.Agrees) (hsound : s.world.Sound) {id : UInt32}
    (hflagged : s.world.Flagged id) {between : List (Action K)}
    (hbetween : ∀ a ∈ between, a.isTick = false) (now : Time) :
    ∀ u ∈ ((s.run between).runTick now).world.tanks, u.id ≠ id := by
  have hsound' : (s.run between).world.Sound := sound_run hsound between
  have hend : ((s.run between).runTick now).world.Sound := sound_act hsound' (.tick now)
  have hout := runTick_badge?_of_flagged (agrees_run h hsound between) hsound'.keyed
    (flagged_run hflagged hsound hbetween) now
  intro u hu hid
  rw [← hid, World.badge?_of_mem hend.keyed hu] at hout
  exact Option.some_ne_none _ hout

/-- **The registry and the world agree, whatever happens to the server**, and in whatever order it
visits what is in its world.

* The ids in the registry, each of them once, are those of the tanks that are not disconnected.
* A join under the id of a tank that is there changes nothing at all.
* The tanks that a tick leaves disconnected are those of the registered clients whose mailboxes its
  broadcast found closed.
* The next tick takes these out, whatever happens before it.
* It does not matter in which order a tick drops the clients that its broadcast found gone. -/
theorem registry_agrees (settings : Settings K) (source : Source) (actions : List (Action K)) :
    let s := (ofSettings settings source).run actions
    (s.clients.ids.Nodup ∧
      ∀ id, id ∈ s.clients.ids ↔ ∃ t ∈ s.world.tanks, t.id = id ∧ t.disconnected = false) ∧
    (∀ t ∈ s.world.tanks, ∀ now name capacity,
      s.handle now (.join t.id name capacity) = s) ∧
    (∀ now, ∀ t ∈ (s.runTick now).world.tanks, t.disconnected = true ↔
      ∃ c ∈ s.clients.subscriptions,
        c.registered = true ∧ c.id = t.id ∧ c.mailbox.delivery = .closed) ∧
    (∀ now, ∀ t ∈ (s.runTick now).world.tanks, t.disconnected = true →
      ∀ between : List (Action K), (∀ a ∈ between, a.isTick = false) → ∀ later,
        ∀ u ∈ (((s.runTick now).run between).runTick later).world.tanks, u.id ≠ t.id) ∧
    (∀ now, ∀ gone : List UInt32, gone.Perm (s.clients.broadcast (s.world.tick now).records).2 →
      s.runTick now = gone.foldl drop ⟨(s.world.tick now).snapshot.1,
        (s.clients.broadcast (s.world.tick now).records).1⟩) := by
  intro s
  obtain ⟨hsound, hagrees⟩ : s.world.Sound ∧ s.Agrees := reached settings source actions
  have htick : ∀ now, (s.runTick now).world.Sound := fun now => sound_act hsound (.tick now)
  refine ⟨⟨hagrees.nodup, fun id => ?_⟩, fun t ht now name capacity => ?_,
    fun now t ht => ?_, fun now t ht hgone between hbetween later => ?_, fun now gone hperm => ?_⟩
  · rw [hagrees.mem_iff id, World.present_iff hsound.keyed]
  · refine handle_join_refused ?_ now name capacity
    rw [World.badge?_of_mem hsound.keyed ht]
    exact Option.some_ne_none _
  · rw [← World.flagged_iff_of_mem (htick now).keyed ht,
      flagged_runTick_iff hagrees hsound.keyed, Registry.mem_lost]
  · have hflagged : (s.runTick now).world.Flagged t.id :=
      (World.flagged_iff_of_mem (htick now).keyed ht).mpr hgone
    exact gone_after_tick (hagrees.runTick hsound now) (htick now) hflagged hbetween later
  · rw [runTick_eq hagrees hsound.keyed]
    exact dropAll_perm hperm.symm _

end Server

end TankArena
