import Mathlib.Data.List.Induction
import TankArena.Proofs.Server.Agreement

/-!
# A player's life in the snapshots

From the join of a player until the next join under the same id, what the snapshots say of the
player follows from three facts about the run so far: whether a snapshot was built, whether the
tank was flagged (`WasFlagged`), and whether a snapshot was built after that (`WasLastShown`).

* Until the last one, every snapshot has exactly one record of the tank.
* The first one, and no other, says that the player has just joined.
* The last one, and no other, says that the player has gone.
* After it no snapshot has a record of the tank.

`Followed` ties the badge of the tank to the run so far.  It is kept by every action
(`followed_run`), and the records are read off it (`shown_until_gone`).  Whether the tank dies or
comes back, who flags it, whether that happens before its first snapshot or after a broadcast, and
in which order the tanks are visited, does not matter.
-/

namespace TankArena

open Table (Keyed)
open Tank (Badge)

variable {K : Type}

/-! ## 1. The records of one tank -/

/-- The record, if it tells of the tank with an id. -/
def Record.ofTank? (id : UInt32) : Record K → Option (TankRecord K)
  | .tank r => if r.id = id then some r else none
  | _ => none

/-- All records of the tank with an id in a snapshot. -/
def tankRecords (id : UInt32) (records : List (Record K)) : List (TankRecord K) :=
  records.filterMap (Record.ofTank? id)

/-- **A snapshot of a sound world shows a tank exactly once, if it is there.** -/
theorem tankRecords_records {w : World K} (hk : Keyed w.tanks) (id : UInt32) :
    tankRecords id w.records = ((w.tank? id).map Tank.record).toList := by
  have hfound := Table.filterMap_map_eq_toList hk id (f := fun t => Record.tank t.record)
    (g := Record.ofTank? id) (k := Tank.record) fun _ => rfl
  simp only [tankRecords, World.records, List.filterMap_append, hfound]
  rw [Table.filterMap_map_eq_nil fun _ => rfl, Table.filterMap_map_eq_nil fun _ => rfl,
    Table.filterMap_map_eq_nil fun _ => rfl]
  simp [World.tank?]

namespace Server

variable [Scalar K]

/-- The snapshot that a tick of the server builds. -/
def snapshotAt (now : Time) (s : Server K) : List (Record K) := (s.world.tick now).snapshot.2

/-! ## 2. What has happened since -/

/-- Whether the tank with an id was flagged at some moment of a run. -/
def WasFlagged (id : UInt32) (s : Server K) (actions : List (Action K)) : Prop :=
  ∃ earlier, earlier <+: actions ∧ (s.run earlier).world.Flagged id

/-- Whether a snapshot was built in a run after the tank with an id had been flagged. -/
def WasLastShown (id : UInt32) (s : Server K) (actions : List (Action K)) : Prop :=
  ∃ earlier now, earlier ++ [.tick now] <+: actions ∧ s.WasFlagged id earlier

/-- Whether no join in a run adds a tank with an id. -/
def NoJoin (id : UInt32) (s : Server K) (actions : List (Action K)) : Prop :=
  ∀ earlier now name capacity, earlier ++ [.message now (.join id name capacity)] <+: actions →
    ((s.run earlier).world.join id name).2 = false

/-- How many deadly hits are the work of a player in an action. -/
def pointsIn (id : UInt32) (s : Server K) : Action K → Nat
  | .tick now => s.world.points now id
  | _ => 0

/-- How many deadly hits are the work of a player in a run. -/
def earned (id : UInt32) (s : Server K) : List (Action K) → Nat
  | [] => 0
  | a :: actions => s.pointsIn id a + (s.act a).earned id actions

variable {s : Server K} {id : UInt32} {actions : List (Action K)} {a : Action K}

theorem earned_cons (id : UInt32) (s : Server K) (a : Action K) (actions : List (Action K)) :
    s.earned id (a :: actions) = s.pointsIn id a + (s.act a).earned id actions := rfl

theorem earned_append (id : UInt32) (s : Server K) (before after : List (Action K)) :
    s.earned id (before ++ after) = s.earned id before + (s.run before).earned id after := by
  induction before generalizing s with
  | nil => exact (Nat.zero_add _).symm
  | cons a before ih =>
    rw [List.cons_append, earned_cons, earned_cons, ih, Nat.add_assoc]
    rfl

theorem earned_concat (id : UInt32) (s : Server K) (actions : List (Action K)) (a : Action K) :
    s.earned id (actions ++ [a]) = s.earned id actions + (s.run actions).pointsIn id a :=
  earned_append id s actions [a]

theorem wasFlagged_concat :
    s.WasFlagged id (actions ++ [a]) ↔
      s.WasFlagged id actions ∨ (s.run (actions ++ [a])).world.Flagged id := by
  constructor
  · rintro ⟨earlier, hpre, hflagged⟩
    rcases List.prefix_concat_iff.mp hpre with rfl | hpre
    · exact Or.inr hflagged
    · exact Or.inl ⟨earlier, hpre, hflagged⟩
  · rintro (⟨earlier, hpre, hflagged⟩ | hflagged)
    · exact ⟨earlier, hpre.trans (List.prefix_append _ _), hflagged⟩
    · exact ⟨actions ++ [a], List.prefix_refl _, hflagged⟩

theorem wasLastShown_concat :
    s.WasLastShown id (actions ++ [a]) ↔
      s.WasLastShown id actions ∨ (a.isTick = true ∧ s.WasFlagged id actions) := by
  constructor
  · rintro ⟨earlier, now, hpre, hflagged⟩
    rcases List.prefix_concat_iff.mp hpre with hall | hpre
    · obtain ⟨rfl, htick⟩ := List.append_inj' hall rfl
      obtain rfl : Action.tick now = a := List.singleton_inj.mp htick
      exact Or.inr ⟨rfl, hflagged⟩
    · exact Or.inl ⟨earlier, now, hpre, hflagged⟩
  · rintro (⟨earlier, now, hpre, hflagged⟩ | ⟨htick, hflagged⟩)
    · exact ⟨earlier, now, hpre.trans (List.prefix_append _ _), hflagged⟩
    · cases a with
      | tick now => exact ⟨actions, now, List.prefix_refl _, hflagged⟩
      | message | take | hangUp | reorder => exact absurd htick Bool.false_ne_true

theorem not_wasLastShown_nil : ¬ s.WasLastShown id [] := by
  rintro ⟨earlier, now, hpre, -⟩
  exact absurd (List.prefix_nil.mp hpre) (List.concat_ne_nil _ _)

theorem noJoin_nil : s.NoJoin id [] :=
  fun _ _ _ _ hpre => absurd (List.prefix_nil.mp hpre) (List.concat_ne_nil _ _)

theorem noJoin_concat :
    s.NoJoin id (actions ++ [a]) ↔ s.NoJoin id actions ∧
      ∀ now name capacity, a = .message now (.join id name capacity) →
        ((s.run actions).world.join id name).2 = false := by
  constructor
  · intro h
    refine ⟨fun earlier now name capacity hpre => ?_, fun now name capacity ha => ?_⟩
    · exact h earlier now name capacity (hpre.trans (List.prefix_append _ _))
    · exact h actions now name capacity (ha ▸ List.prefix_refl _)
  · rintro ⟨hbefore, hlast⟩ earlier now name capacity hpre
    rcases List.prefix_concat_iff.mp hpre with hall | hpre
    · obtain ⟨rfl, hjoin⟩ := List.append_inj' hall rfl
      exact hlast now name capacity (List.singleton_inj.mp hjoin).symm
    · exact hbefore earlier now name capacity hpre

theorem NoJoin.mono {earlier : List (Action K)} (h : s.NoJoin id actions)
    (hpre : earlier <+: actions) : s.NoJoin id earlier :=
  fun before now name capacity hbefore =>
    h before now name capacity (hbefore.trans hpre)

theorem WasLastShown.mono {earlier : List (Action K)} (h : s.WasLastShown id earlier)
    (hpre : earlier <+: actions) : s.WasLastShown id actions := by
  obtain ⟨before, now, hbefore, hflagged⟩ := h
  exact ⟨before, now, hbefore.trans hpre, hflagged⟩

/-! ## 3. The badge of a player along a run -/

/-- What a run has made of the badge that a player had on joining. -/
structure Living (id : UInt32) (name : String) (s : Server K) (actions : List (Action K))
    (b : Badge) : Prop where
  name_eq : b.name = name
  joined_iff : b.joined = true ↔ ∀ a ∈ actions, a.isTick = false
  disconnected_iff : b.disconnected = true ↔ s.WasFlagged id actions
  score_eq : b.score = UInt32.ofNat (s.earned id actions)

/-- Between ticks a badge stays as it is, or its player goes. -/
theorem act_badge? (hk : Keyed s.world.tanks) (ha : a.isTick = false)
    (hjoin : ∀ now name capacity, a = .message now (.join id name capacity) →
      (s.world.join id name).2 = false) :
    (s.act a).world.badge? id = s.world.badge? id ∨
      (s.act a).world.badge? id = (s.world.badge? id).map Badge.retire := by
  cases a with
  | message now m =>
    cases m with
    | join key name capacity =>
      left
      rw [act_message, handle_join_world, World.badge?_join, if_neg]
      rintro ⟨rfl, hfree⟩
      have hrefused := hjoin now name capacity rfl
      rw [(World.join_added_iff id name s.world).mpr hfree] at hrefused
      exact absurd hrefused.symm Bool.false_ne_true
    | command key c => exact Or.inl (World.badge?_command hk id key c now)
    | disconnect key =>
      have hbadge := World.badge?_disconnect id key s.world
      by_cases hid : id = key
      · simp only [if_pos hid] at hbadge
        exact Or.inr hbadge
      · simp only [if_neg hid, Option.map_id'] at hbadge
        exact Or.inl hbadge
  | tick now => exact absurd ha.symm Bool.false_ne_true
  | take handle => exact Or.inl rfl
  | hangUp handle => exact Or.inl rfl
  | reorder order => exact Or.inl ((order.shuffle s.world).badge?_eq hk id)

/-- A flag that stays up is up exactly if it was at some moment. -/
theorem disconnected_iff_concat {b b' : Badge} (h : b.disconnected = true ↔ s.WasFlagged id actions)
    (hb' : (s.run (actions ++ [a])).world.badge? id = some b')
    (hstays : b.disconnected = true → b'.disconnected = true) :
    b'.disconnected = true ↔ s.WasFlagged id (actions ++ [a]) := by
  rw [wasFlagged_concat]
  constructor
  · exact fun hgone => Or.inr ⟨b', hb', hgone⟩
  · rintro (hbefore | ⟨c, hc, hgone⟩)
    · exact hstays (h.mpr hbefore)
    · rw [hb', Option.some.injEq] at hc
      rw [hc]
      exact hgone

/-- An action that is no tick keeps what is said of a badge. -/
theorem Living.act {name : String} {b b' : Badge} (h : Living id name s actions b)
    (ha : a.isTick = false) (hb' : (s.run (actions ++ [a])).world.badge? id = some b')
    (hchange : b' = b ∨ b' = b.retire) : Living id name s (actions ++ [a]) b' where
  name_eq := by
    rcases hchange with rfl | rfl
    · exact h.name_eq
    · exact h.name_eq
  joined_iff := by
    have hjoined : b'.joined = b.joined := by
      rcases hchange with rfl | rfl
      · rfl
      · simp
    rw [hjoined, h.joined_iff]
    simp only [List.mem_append, List.mem_singleton]
    constructor
    · rintro hbefore c (hc | rfl)
      · exact hbefore c hc
      · exact ha
    · exact fun hall c hc => hall c (Or.inl hc)
  disconnected_iff := by
    refine disconnected_iff_concat h.disconnected_iff hb' fun hgone => ?_
    rcases hchange with rfl | rfl
    · exact hgone
    · simp
  score_eq := by
    have hscore : b'.score = b.score := by
      rcases hchange with rfl | rfl
      · rfl
      · simp
    have hnone : (s.run actions).pointsIn id a = 0 := by
      cases a with
      | tick now => exact absurd ha.symm Bool.false_ne_true
      | message | take | hangUp | reorder => rfl
    rw [hscore, earned_concat, hnone, Nat.add_zero]
    exact h.score_eq

/-- A tick keeps what is said of the badge of a player who stays. -/
theorem Living.tick {name : String} {b b' : Badge} {now : Time} (h : Living id name s actions b)
    (hb' : (s.run (actions ++ [.tick now])).world.badge? id = some b')
    (hplayer : b.disconnected = false)
    (hchange : b' = (b.gain ((s.run actions).world.points now id)).seen ∨
      b' = (b.gain ((s.run actions).world.points now id)).seen.retire) :
    Living id name s (actions ++ [.tick now]) b' where
  name_eq := by
    have hname : b'.name = b.name := by
      rcases hchange with rfl | rfl
      · simp
      · simp
    rw [hname]
    exact h.name_eq
  joined_iff := by
    have hseen : b'.joined = false := by
      rcases hchange with rfl | rfl
      · simp
      · simp
    rw [hseen]
    refine iff_of_false Bool.false_ne_true fun hall => ?_
    have htick : (Action.tick now : Action K).isTick = false :=
      hall _ (List.mem_append_right _ (List.mem_singleton_self _))
    exact absurd htick.symm Bool.false_ne_true
  disconnected_iff := by
    refine disconnected_iff_concat h.disconnected_iff hb' fun hgone => ?_
    rw [hplayer] at hgone
    exact absurd hgone Bool.false_ne_true
  score_eq := by
    have hscore : b'.score = b.score + UInt32.ofNat ((s.run actions).world.points now id) := by
      rcases hchange with rfl | rfl
      · simp
      · simp
    rw [hscore, h.score_eq, earned_concat, UInt32.ofNat_add]
    rfl

/-- What a run has made of a player: the tank is there, with a badge that tells of the run, until
the last report was made; from then on it is gone. -/
structure Followed (id : UInt32) (name : String) (s : Server K) (actions : List (Action K)) :
    Prop where
  gone : s.WasLastShown id actions → (s.run actions).world.badge? id = none
  there : ¬ s.WasLastShown id actions →
    ∃ b, (s.run actions).world.badge? id = some b ∧ Living id name s actions b

variable {name : String}

/-- A player who has just joined. -/
theorem followed_nil (hfresh : s.world.badge? id = some (Badge.fresh id name)) :
    Followed id name s [] where
  gone := fun hlast => absurd hlast not_wasLastShown_nil
  there := by
    intro _
    refine ⟨Badge.fresh id name, hfresh, ⟨rfl, ?_, ?_, rfl⟩⟩
    · exact iff_of_true rfl fun a ha => absurd ha List.not_mem_nil
    · refine iff_of_false Bool.false_ne_true ?_
      rintro ⟨earlier, hpre, b, hb, hgone⟩
      obtain rfl : earlier = [] := List.prefix_nil.mp hpre
      have hb' : s.world.badge? id = some b := hb
      rw [hfresh, Option.some.injEq] at hb'
      rw [← hb'] at hgone
      exact absurd hgone Bool.false_ne_true

theorem Followed.act (h : Followed id name s actions) (hk : Keyed (s.run actions).world.tanks)
    (ha : a.isTick = false)
    (hjoin : ∀ now name capacity, a = .message now (.join id name capacity) →
      ((s.run actions).world.join id name).2 = false) :
    Followed id name s (actions ++ [a]) := by
  have hlast : s.WasLastShown id (actions ++ [a]) ↔ s.WasLastShown id actions := by
    rw [wasLastShown_concat, ha]
    exact or_iff_left fun h => Bool.false_ne_true h.1
  have hbadge := act_badge? hk ha hjoin
  rw [← run_concat] at hbadge
  constructor
  · intro hshown
    have hnone := h.gone (hlast.mp hshown)
    rcases hbadge with hsame | hretired
    · rw [hsame, hnone]
    · rw [hretired, hnone, Option.map_none]
  · intro hnot
    obtain ⟨b, hb, hliving⟩ := h.there fun hshown => hnot (hlast.mpr hshown)
    rcases hbadge with hsame | hretired
    · rw [hb] at hsame
      exact ⟨b, hsame, hliving.act ha hsame (Or.inl rfl)⟩
    · rw [hb, Option.map_some] at hretired
      exact ⟨b.retire, hretired, hliving.act ha hretired (Or.inr rfl)⟩

/-- A tick makes the last report of a flagged tank and takes it out; any other tank stays. -/
theorem Followed.tick (h : Followed id name s actions) (hagrees : (s.run actions).Agrees)
    (hk : Keyed (s.run actions).world.tanks) (now : Time) :
    Followed id name s (actions ++ [.tick now]) := by
  have hlast : s.WasLastShown id (actions ++ [.tick now]) ↔
      s.WasLastShown id actions ∨ s.WasFlagged id actions := by
    rw [wasLastShown_concat]
    exact or_congr_right (and_iff_right rfl)
  have hrun : s.run (actions ++ [.tick now]) = (s.run actions).runTick now :=
    run_concat s actions (.tick now)
  have hbadge := runTick_badge? hagrees hk now id
  rw [← hrun] at hbadge
  constructor
  · intro hshown
    by_cases hbefore : s.WasLastShown id actions
    · rw [hbadge, h.gone hbefore]
      rfl
    · obtain ⟨b, hb, hliving⟩ := h.there hbefore
      have hgone : b.disconnected = true :=
        hliving.disconnected_iff.mpr ((hlast.mp hshown).resolve_left hbefore)
      rw [hbadge, hb, Option.map_some, Option.filter_some, if_neg (by simp [hgone]),
        Option.map_none]
  · intro hnot
    obtain ⟨b, hb, hliving⟩ := h.there fun hbefore => hnot (hlast.mpr (Or.inl hbefore))
    have hplayer : b.disconnected = false := by
      rw [Bool.eq_false_iff]
      exact fun hgone => hnot (hlast.mpr (Or.inr (hliving.disconnected_iff.mp hgone)))
    rw [hb, Option.map_some, Option.filter_some, if_pos (by simp [hplayer]), Option.map_some]
      at hbadge
    refine ⟨_, hbadge, hliving.tick hbadge hplayer ?_⟩
    split
    · exact Or.inr rfl
    · exact Or.inl rfl

/-- **What a run makes of a player.**  By induction on the run, its last action first. -/
theorem followed_run (hsound : s.world.Sound) (hagrees : s.Agrees)
    (hfresh : s.world.badge? id = some (Badge.fresh id name)) (hjoin : s.NoJoin id actions) :
    Followed id name s actions := by
  induction actions using List.reverseRecOn with
  | nil => exact followed_nil hfresh
  | append_singleton actions a ih =>
    obtain ⟨hearlier, hlast⟩ := noJoin_concat.mp hjoin
    have hbefore := ih hearlier
    have hkeyed : Keyed (s.run actions).world.tanks := (sound_run hsound actions).keyed
    cases a with
    | tick now => exact hbefore.tick (agrees_run hagrees hsound actions) hkeyed now
    | message | take | hangUp | reorder => exact hbefore.act hkeyed rfl hlast

/-! ## 4. What the snapshots show -/

theorem shown_of_gone (hk : Keyed s.world.tanks) (hgone : s.world.badge? id = none) (now : Time) :
    tankRecords id (s.snapshotAt now) = [] := by
  have hnone := World.badge?_tick hk id now
  rw [hgone, Option.map_none] at hnone
  have htank : (s.world.tick now).tank? id = none := Option.map_eq_none_iff.mp hnone
  have hshown := tankRecords_records (World.tick_keyed now hk) id
  rw [htank] at hshown
  exact hshown

/-- A snapshot shows a tank that is there once, sound, and with the points of its tick. -/
theorem shown_of_badge (hsound : s.world.Sound) {b : Badge} (hb : s.world.badge? id = some b)
    (now : Time) :
    ∃ t : Tank K, t.Sound ∧ t.badge = b.gain (s.world.points now id) ∧
      tankRecords id (s.snapshotAt now) = [t.record] := by
  have hbadge := World.badge?_tick hsound.keyed id now
  rw [hb, Option.map_some] at hbadge
  obtain ⟨t, ht, htb⟩ := Option.map_eq_some_iff.mp hbadge
  refine ⟨t, (hsound.tick now).tanks t (Table.mem_of_find? ht), htb, ?_⟩
  have hshown := tankRecords_records (World.tick_keyed now hsound.keyed) id
  rw [ht] at hshown
  exact hshown

/-- The score that a snapshot shows counts the deadly hits since the join. -/
theorem shown_score (hsound : s.world.Sound) (hfollowed : Followed id name s actions) {now : Time}
    {r : TankRecord K} (hr : r ∈ tankRecords id ((s.run actions).snapshotAt now)) :
    r.score = UInt32.ofNat (s.earned id (actions ++ [.tick now])) := by
  have hsound' : (s.run actions).world.Sound := sound_run hsound actions
  by_cases hlast : s.WasLastShown id actions
  · rw [shown_of_gone hsound'.keyed (hfollowed.gone hlast)] at hr
    exact absurd hr List.not_mem_nil
  · obtain ⟨b, hb, hliving⟩ := hfollowed.there hlast
    obtain ⟨t, -, hbadge, hshown⟩ := shown_of_badge hsound' hb now
    rw [hshown, List.mem_singleton] at hr
    have hscore : t.record.score
        = b.score + UInt32.ofNat ((s.run actions).world.points now id) :=
      congrArg Badge.score hbadge
    rw [hr, hscore, hliving.score_eq, earned_concat, UInt32.ofNat_add]
    rfl

/-- A longer run has earned no less. -/
theorem earned_mono {earlier : List (Action K)} (h : earlier <+: actions) :
    s.earned id earlier ≤ s.earned id actions := by
  obtain ⟨rest, rfl⟩ := h
  rw [earned_append]
  exact Nat.le_add_right _ _

/-- The record of a tank that is there says what its badge says. -/
theorem shown_of_living (hsound : (s.run actions).world.Sound) {b : Badge}
    (hb : (s.run actions).world.badge? id = some b) (hliving : Living id name s actions b)
    (now : Time) :
    ∃ r, tankRecords id ((s.run actions).snapshotAt now) = [r] ∧
      (r.joined = true ↔ ∀ a ∈ actions, a.isTick = false) ∧
      (r.disconnected = true ↔ s.WasFlagged id actions) ∧
      (r.disconnected = true → r.died = true ∧ r.hitPoints = 0) ∧
      r.name = name := by
  obtain ⟨t, ht, hbadge, hshown⟩ := shown_of_badge hsound hb now
  have hjoined : t.record.joined = b.joined :=
    (congrArg Badge.joined hbadge).trans (Badge.gain_joined _ b)
  have hgone : t.record.disconnected = b.disconnected :=
    (congrArg Badge.disconnected hbadge).trans (Badge.gain_disconnected _ b)
  have hname : t.record.name = b.name :=
    (congrArg Badge.name hbadge).trans (Badge.gain_name _ b)
  refine ⟨t.record, hshown, ?_, ?_, fun hdisconnected => ?_, hname.trans hliving.name_eq⟩
  · rw [hjoined]
    exact hliving.joined_iff
  · rw [hgone]
    exact hliving.disconnected_iff
  · have hdied : t.died = true := ht.died_of_disconnected hdisconnected
    exact ⟨hdied, ht.died_iff.mp hdied⟩

/-- A score that fits a word is no less than the ones shown before it. -/
theorem shown_score_mono (hsound : s.world.Sound) {earlier : List (Action K)} {shownAt now : Time}
    {r r' : TankRecord K} (hearlier : Followed id name s earlier)
    (hfollowed : Followed id name s actions) (hpre : earlier ++ [.tick shownAt] <+: actions)
    (hr' : r' ∈ tankRecords id ((s.run earlier).snapshotAt shownAt))
    (hr : r ∈ tankRecords id ((s.run actions).snapshotAt now))
    (hfits : s.earned id (actions ++ [.tick now]) < UInt32.size) : r'.score ≤ r.score := by
  have hle : s.earned id (earlier ++ [.tick shownAt]) ≤ s.earned id (actions ++ [.tick now]) :=
    earned_mono (hpre.trans (List.prefix_append _ _))
  rw [shown_score hsound hearlier hr', shown_score hsound hfollowed hr, UInt32.le_iff_toNat_le,
    UInt32.toNat_ofNat_of_lt' hfits, UInt32.toNat_ofNat_of_lt' (Nat.lt_of_le_of_lt hle hfits)]
  exact hle

/-- **A player is shown from the join on, once in each snapshot, and last when the player has
gone.**  After a join that added a tank, and until another one does under the same id, whatever
happens and in whatever order the world is visited:

* once a snapshot was built with the tank flagged, no snapshot shows the tank;
* until then every snapshot shows it exactly once.  The record says that the player has just joined
  exactly if no snapshot was built since the join, and that the player has gone exactly if the tank
  was flagged; then it is dead and has no hit points.  It has the name of the join, trimmed, and as
  its score the deadly hits since the join, which never decreases while it fits a word. -/
theorem shown_until_gone (settings : Settings K) (source : Source) (before : List (Action K))
    (joinedAt : Time) (id : UInt32) (name : String) (capacity : Nat) (actions : List (Action K))
    (now : Time)
    (hadded : (((ofSettings settings source).run before).world.join id name).2 = true)
    (hjoin : (((ofSettings settings source).run before).handle joinedAt
      (.join id name capacity)).NoJoin id actions) :
    let s := ((ofSettings settings source).run before).handle joinedAt (.join id name capacity)
    let shown := tankRecords id ((s.run actions).snapshotAt now)
    (s.WasLastShown id actions → shown = []) ∧
    (¬ s.WasLastShown id actions → ∃ r, shown = [r] ∧
      (r.joined = true ↔ ∀ a ∈ actions, a.isTick = false) ∧
      (r.disconnected = true ↔ s.WasFlagged id actions) ∧
      (r.disconnected = true → r.died = true ∧ r.hitPoints = 0) ∧
      r.name = Text.trim name ∧
      r.score = UInt32.ofNat (s.earned id (actions ++ [.tick now])) ∧
      (s.earned id (actions ++ [.tick now]) < UInt32.size →
        ∀ earlier shownAt, earlier ++ [.tick shownAt] <+: actions →
          ∀ r' ∈ tankRecords id ((s.run earlier).snapshotAt shownAt), r'.score ≤ r.score)) := by
  intro s shown
  obtain ⟨hsound₀, hagrees₀⟩ := reached settings source before
  have hfree : ((ofSettings settings source).run before).world.badge? id = none :=
    (World.join_added_iff id name _).mp hadded
  have hsound : s.world.Sound := sound_act hsound₀ (.message joinedAt (.join id name capacity))
  have hagrees : s.Agrees := hagrees₀.handle hsound₀ joinedAt (.join id name capacity)
  have hfresh : s.world.badge? id = some (Badge.fresh id (Text.trim name)) :=
    handle_join_badge? hfree joinedAt name capacity
  have hfollowed : Followed id (Text.trim name) s actions :=
    followed_run hsound hagrees hfresh hjoin
  have hsound' : (s.run actions).world.Sound := sound_run hsound actions
  refine ⟨fun hlast => shown_of_gone hsound'.keyed (hfollowed.gone hlast) now, fun hlast => ?_⟩
  obtain ⟨b, hb, hliving⟩ := hfollowed.there hlast
  obtain ⟨r, hshown, hjoined, hgone, hdead, hname⟩ := shown_of_living hsound' hb hliving now
  have hr : r ∈ tankRecords id ((s.run actions).snapshotAt now) := by
    rw [hshown]
    exact List.mem_singleton_self r
  refine ⟨r, hshown, hjoined, hgone, hdead, hname, shown_score hsound hfollowed hr,
    fun hfits earlier shownAt hpre r' hr' => ?_⟩
  have hearlier : earlier <+: actions := (List.prefix_append earlier [.tick shownAt]).trans hpre
  exact shown_score_mono hsound (followed_run hsound hagrees hfresh (hjoin.mono hearlier))
    hfollowed hpre hr' hr hfits

/-- A player who leaves before the first snapshot: one record says both.  Another join under the
same id comes while the tank waits to be shown, and is refused. -/
theorem shown_until_gone_before_first :
    ∃ r, tankRecords 7 (((((ofSettings {} (Source.ofSeed 0) : Server Float).run []).handle 1
        (.join 7 " ada " 4)).run
          [.message 2 (.disconnect 7), .message 3 (.join 7 "eve" 4)]).snapshotAt 4) = [r] ∧
      r.joined = true ∧ r.disconnected = true ∧ r.died = true ∧ r.hitPoints = 0 ∧
      r.name = "ada" := by
  have hfree : ((ofSettings {} (Source.ofSeed 0) : Server Float).run []).world.badge? 7 = none :=
    ofSettings_badge? {} (Source.ofSeed 0) 7
  have hadded := (World.join_added_iff 7 " ada " _).mpr hfree
  have hfresh := handle_join_badge? hfree 1 " ada " 4
  have hlaw := shown_until_gone {} (Source.ofSeed 0) [] 1 7 " ada " 4
    ([] ++ [.message 2 (.disconnect 7)] ++ [.message 3 (.join 7 "eve" 4)]) 4 hadded
  -- From here on nothing depends on how the server came about.
  generalize ((ofSettings {} (Source.ofSeed 0) : Server Float).run []).handle 1
    (.join 7 " ada " 4) = s at hfresh hlaw ⊢
  have hretired : (s.run [.message 2 (.disconnect 7)]).world.badge? 7
      = some (Badge.fresh 7 (Text.trim " ada ")).retire :=
    handle_disconnect_badge? hfresh 2
  have hjoin : s.NoJoin 7
      ([] ++ [.message 2 (.disconnect 7)] ++ [.message 3 (.join 7 "eve" 4)]) := by
    rw [noJoin_concat, noJoin_concat]
    refine ⟨⟨noJoin_nil, fun now name capacity hmessage => ?_⟩, fun now name capacity _ => ?_⟩
    · cases hmessage
    · have hthere : (s.run [.message 2 (.disconnect 7)]).world.badge? 7 ≠ none := by
        rw [hretired]
        exact Option.some_ne_none _
      exact congrArg Prod.snd (World.join_refused hthere)
  have hlast : ¬ s.WasLastShown 7
      ([] ++ [.message 2 (.disconnect 7)] ++ [.message 3 (.join 7 "eve" 4)]) := by
    rw [wasLastShown_concat, wasLastShown_concat]
    rintro ((hnil | ⟨htick, -⟩) | ⟨htick, -⟩)
    · exact not_wasLastShown_nil hnil
    · exact absurd htick Bool.false_ne_true
    · exact absurd htick Bool.false_ne_true
  have hflagged : s.WasFlagged 7
      ([] ++ [.message 2 (.disconnect 7)] ++ [.message 3 (.join 7 "eve" 4)]) :=
    ⟨[.message 2 (.disconnect 7)], List.prefix_append _ _, _, hretired, rfl⟩
  obtain ⟨r, hr, hjoined, hgone, hdead, hname, -, -⟩ := (hlaw hjoin).2 hlast
  obtain ⟨hdied, hpoints⟩ := hdead (hgone.mpr hflagged)
  refine ⟨r, hr, hjoined.mpr fun a ha => ?_, hgone.mpr hflagged, hdied, hpoints, ?_⟩
  · rcases List.mem_cons.mp ha with rfl | ha
    · rfl
    · rw [List.mem_singleton.mp ha]
      rfl
  · rw [hname]
    decide

end Server

end TankArena
