import Mathlib.Logic.Function.Iterate
import TankArena.Proofs.World.Course
import TankArena.Proofs.World.Meetings
import TankArena.Proofs.World.Pickups

/-!
# Death and return

A tank or a power-up that is dead waits until more than the delay has passed, and comes back in the
first tick after that.  This file follows both through a tick.

* Those that are due take one place each, in the order in which they are visited, tanks before
  power-ups (`returned_tank?`, `returned_powerUp?`); what is drawn in a tick is never drawn again
  (`tick_source`).
* From the walls on, a dead tank is left alone, and a live one lives on or dies at the instant of
  the tick (`Tank.Fares`).  So a tank that is not due ends the tick as it began it, around the edges
  and with its points, and a tank that has come back is live or has just died again (`exists_fate`).
* After a tick nothing is overdue (`died_within_delay`).

Instants need not increase: towards an earlier one no time has passed.
-/

namespace TankArena

open Identified (ident)
open Table (Keyed)

/-! ## 1. Draws one after the other -/

namespace Table

section Deal

variable {α γ σ : Type} (due : α → Bool) (draw : σ → γ × σ) (give : γ → α → α)

/-- Everything that is due draws once. -/
theorem visit_deal_snd (s : σ) (xs : List α) :
    (visit (deal due draw give) s xs).2 = (fun s => (draw s).2)^[xs.countP due] s := by
  induction xs generalizing s with
  | nil => rfl
  | cons x xs ih =>
    rw [visit_cons, ih, deal]
    by_cases hdue : due x = true
    · rw [if_pos hdue, List.countP_cons_of_pos hdue, Function.iterate_succ_apply]
    · rw [if_neg hdue, List.countP_cons_of_neg hdue]

variable [Identified α] {give} (hgive : ∀ c x, ident (give c x) = ident x)

include hgive in
theorem ident_deal (s : σ) (x : α) : ident (deal due draw give s x).1 = ident x := by
  unfold deal
  split
  · exact hgive _ x
  · rfl

include hgive in
/-- **Draws in turn.**  What is found under an id has drawn after all that were due before it. -/
theorem find?_visit_deal (id : UInt32) (s : σ) (xs : List α) :
    find? id (visit (deal due draw give) s xs).1 = (find? id xs).map fun x =>
      (deal due draw give
        ((fun s => (draw s).2)^[(xs.takeWhile fun y => ident y != id).countP due] s) x).1 := by
  induction xs generalizing s with
  | nil => rfl
  | cons x xs ih =>
    have hkept : ident (deal due draw give s x).1 = ident x := ident_deal due draw hgive s x
    rw [visit_cons]
    by_cases hid : ident x = id
    · rw [find?_cons_self (hkept.trans hid), find?_cons_self hid,
        List.takeWhile_cons_of_neg (by simp [hid])]
      rfl
    · rw [find?_cons_other (hkept ▸ hid), find?_cons_other hid,
        List.takeWhile_cons_of_pos (by simp [hid]), ih, deal]
      by_cases hdue : due x = true
      · rw [if_pos hdue, List.countP_cons_of_pos hdue, Function.iterate_succ_apply]
      · rw [if_neg hdue, List.countP_cons_of_neg hdue]

end Deal

end Table

variable {K : Type}

theorem Tank.isDue_iff {delay : Nat} {now : Time} {t : Tank K} :
    t.isDue delay now = true ↔
      t.disconnected = false ∧ ∃ since, t.diedAt = some since ∧ delay < now.elapsed since := by
  simp [isDue, Option.any_eq_true]

theorem PowerUp.isDue_iff {delay : Nat} {now : Time} {p : PowerUp K} :
    p.isDue delay now = true ↔ ∃ since, p.diedAt = some since ∧ delay < now.elapsed since := by
  simp [isDue, Option.any_eq_true]

variable [Scalar K]

namespace World

/-- The source of a world after some places were drawn from it. -/
def sourceAfter (n : Nat) (w : World K) : Source :=
  (fun source : Source => (source.place w.half).2)^[n] w.source

/-- The place that is drawn in a world after some others. -/
def placeAfter (n : Nat) (w : World K) : Vec K := ((w.sourceAfter n).place w.half).1

/-- How many tanks that are due are visited before the one with an id. -/
def tankTurn (now : Time) (id : UInt32) (w : World K) : Nat :=
  (w.tanks.takeWhile fun t => t.id != id).countP (Tank.isDue w.respawnDelay now)

/-- How many tanks and power-ups that are due are visited before the power-up with an id. -/
def powerUpTurn (now : Time) (id : UInt32) (w : World K) : Nat :=
  w.tanks.countP (Tank.isDue w.respawnDelay now) +
    (w.powerUps.takeWhile fun p => p.id != id).countP (PowerUp.isDue w.respawnDelay now)

theorem respawn_tank? (now : Time) (id : UInt32) (w : World K) :
    (w.respawn now).tank? id = (w.tank? id).map fun t =>
      if t.isDue w.respawnDelay now then t.revive (w.placeAfter (w.tankTurn now id)) else t := by
  unfold tank?
  rw [respawn_deals]
  have hkept : ∀ location (t : Tank K), ident (t.revive location) = ident t := fun _ _ => rfl
  refine (Table.find?_visit_deal _ _ hkept id _ _).trans (Option.map_congr fun t _ => ?_)
  unfold Table.deal
  split <;> rfl

theorem respawn_powerUp? (now : Time) (id : UInt32) (w : World K) :
    Table.find? id (w.respawn now).powerUps = (Table.find? id w.powerUps).map fun p =>
      if p.isDue w.respawnDelay now then p.revive (w.placeAfter (w.powerUpTurn now id)) else p := by
  rw [respawn_deals]
  have hkept : ∀ location (p : PowerUp K), ident (p.revive location) = ident p := fun _ _ => rfl
  refine (Table.find?_visit_deal _ _ hkept id _ _).trans (Option.map_congr fun p _ => ?_)
  rw [Table.visit_deal_snd, ← Function.iterate_add_apply, Nat.add_comm]
  unfold Table.deal
  split <;> rfl

theorem respawn_source (now : Time) (w : World K) :
    (w.respawn now).source = w.sourceAfter (w.tanks.countP (Tank.isDue w.respawnDelay now) +
      w.powerUps.countP (PowerUp.isDue w.respawnDelay now)) := by
  rw [respawn_deals]
  refine (Table.visit_deal_snd _ _ _ _ _).trans ?_
  rw [Table.visit_deal_snd, ← Function.iterate_add_apply, Nat.add_comm]
  rfl

/-- **A tank comes back** if it is due, at the place that is drawn in its turn. -/
theorem returned_tank? (now : Time) (id : UInt32) (w : World K) :
    (w.returned now).tank? id = (w.tank? id).map fun t =>
      if t.isDue w.respawnDelay now then t.revive (w.placeAfter (w.tankTurn now id)) else t := by
  have hrespawn := respawn_tank? now id { w with ticks := w.ticks + 1 }.sweep
  exact hrespawn

/-- **A power-up comes back** if it is due, at the place that is drawn in its turn. -/
theorem returned_powerUp? (now : Time) (id : UInt32) (w : World K) :
    Table.find? id (w.returned now).powerUps = (Table.find? id w.powerUps).map fun p =>
      if p.isDue w.respawnDelay now then p.revive (w.placeAfter (w.powerUpTurn now id)) else p := by
  have hrespawn := respawn_powerUp? now id { w with ticks := w.ticks + 1 }.sweep
  exact hrespawn

/-- What is drawn in a tick is drawn for all. -/
theorem tick_source (now : Time) (w : World K) :
    (w.tick now).source = w.sourceAfter (w.tanks.countP (Tank.isDue w.respawnDelay now) +
      w.powerUps.countP (PowerUp.isDue w.respawnDelay now)) := by
  have hrespawn := respawn_source now { w with ticks := w.ticks + 1 }.sweep
  exact hrespawn

end World

/-! ## 2. What a tank meets after the walls -/

/-- A tank before and after what it meets in a tick: it is left alone if it is dead, and otherwise
lives on or dies at the instant of the tick. -/
structure Tank.Fares (now : Time) (t u : Tank K) : Prop where
  id_eq : u.id = t.id
  dead : t.isLive = false → u = t
  live : t.isLive = true → u.isLive = true ∨ u.died = true ∧ u.diedAt = some now

namespace Tank

variable {now : Time} {t u v : Tank K}

omit [Scalar K] in
theorem Fares.refl (now : Time) (t : Tank K) : t.Fares now t := ⟨rfl, fun _ => rfl, Or.inl⟩

omit [Scalar K] in
theorem Fares.trans (h : t.Fares now u) (h' : u.Fares now v) : t.Fares now v where
  id_eq := h'.id_eq.trans h.id_eq
  dead := by
    intro hdead
    obtain rfl := h.dead hdead
    exact h'.dead hdead
  live := by
    intro hlive
    cases hu : u.isLive with
    | true => exact h'.live hu
    | false =>
      obtain rfl := h'.dead hu
      rcases h.live hlive with hstill | hdies
      · rw [hu] at hstill
        cases hstill
      · exact Or.inr hdies

omit [Scalar K] in
theorem fares_kill (h : t.isLive = true) : t.Fares now (t.kill now) where
  id_eq := rfl
  dead := fun hdead => absurd (h.symm.trans hdead) (by decide)
  live := fun _ => Or.inr ⟨rfl, rfl⟩

omit [Scalar K] in
theorem fares_damage (h : t.isLive = true) : t.Fares now (t.damage now) := by
  unfold damage
  split
  · exact fares_kill h
  · exact ⟨rfl, fun hdead => absurd (h.symm.trans hdead) (by decide), Or.inl⟩

theorem fares_collect (now : Time) (powerUps : List (PowerUp K)) (t : Tank K) :
    t.Fares now (t.collect now powerUps).1 := by
  by_cases hlive : t.isLive = true
  · obtain ⟨ammo, hammo⟩ := t.collect_ammo now powerUps
    rw [hammo]
    exact ⟨rfl, fun hdead => absurd (hlive.symm.trans hdead) (by decide), Or.inl⟩
  · unfold collect
    rw [if_neg hlive]
    exact Fares.refl now t

end Tank

/-- Tanks that fare one by one. -/
abbrev TanksFare (now : Time) : List (Tank K) → List (Tank K) → Prop :=
  List.Forall₂ (Tank.Fares now)

omit [Scalar K] in
theorem TanksFare.refl (now : Time) (ts : List (Tank K)) : TanksFare now ts ts :=
  List.forall₂_same.mpr fun t _ => Tank.Fares.refl now t

omit [Scalar K] in
theorem TanksFare.trans {now : Time} {ts us vs : List (Tank K)} (h : TanksFare now ts us)
    (h' : TanksFare now us vs) : TanksFare now ts vs :=
  Table.forall₂_trans (fun _ _ _ htu huv => htu.trans huv) h h'

/-- **One hit** leaves every tank but its victim alone. -/
theorem Toll.suffer_fares {now : Time} {toll : Toll K} (hk : Keyed toll.tanks) {x : Hit K}
    (hmem : x.victim ∈ toll.tanks) (hl : x.lands = true) :
    TanksFare now toll.tanks (toll.suffer now x).tanks := by
  unfold TanksFare suffer Table.modify
  dsimp only
  rw [List.forall₂_map_right_iff, List.forall₂_same]
  intro t ht
  rw [Tank.ident_eq]
  by_cases hid : t.id = x.victim.id
  · have hself : t = x.victim := hk.eq_of_ident_eq ht hmem hid
    have hlive : t.isLive = true := hself ▸ Hit.isLive_of_lands hl
    rw [if_pos hid]
    cases x with
    | shot p v => exact Tank.fares_damage hlive
    | ray b v => exact Tank.fares_kill hlive
  · rw [if_neg hid]
    exact Tank.Fares.refl now t

theorem Toll.Hits.fares {now : Time} {toll toll' : Toll K} {hits : List (Hit K)}
    (h : Toll.Hits now toll hits toll') (hk : Keyed toll.tanks) :
    TanksFare now toll.tanks toll'.tanks := by
  induction h with
  | done toll => exact TanksFare.refl now toll.tanks
  | hit hmem hl _ ih =>
    exact (Toll.suffer_fares hk hmem hl).trans (ih (Toll.suffer_keyed hk now _))

namespace World

variable {w : World K}

/-- From the walls to the points a tick leaves the dead alone. -/
theorem toll_fares (hk : Keyed w.tanks) (now : Time) :
    TanksFare now (w.walled now).tanks (w.toll now).tanks := by
  obtain ⟨_, _, hhits⟩ := exists_tickHits hk now
  have hstrike : TanksFare now (w.walled now).tanks (w.struck now).1.tanks :=
    hhits.volley.fares ((changes_walled now w).keyed hk)
  have hcollect : TanksFare now (w.struck now).1.tanks (w.gathered now).tanks :=
    Table.visit_forall₂ (fun powerUps t => Tank.fares_collect now powerUps t) _ _
  have hburn : TanksFare now (w.gathered now).tanks (w.toll now).tanks :=
    hhits.blaze.fares ((changes_gathered now hk).keyed hk)
  exact hstrike.trans (hcollect.trans hburn)

/-! ## 3. One tank and one power-up in a tick -/

theorem isLive_walled (w : World K) (b : Tank K) :
    ((b.step.wrap w.half).rebound w.boxes).isLive = b.isLive := by
  obtain ⟨_, _, _, hwalled⟩ := exists_walled w b
  rw [hwalled]
  rfl

/-- Neither steps nor walls touch a dead tank. -/
theorem walled_of_dead (w : World K) {b : Tank K} (h : b.isLive = false) :
    (b.step.wrap w.half).rebound w.boxes = b.wrap w.half := by
  have hdead : (b.wrap w.half).isLive = false := h
  rw [Tank.step_of_not_isLive h, Tank.rebound, hdead, Bool.false_and, if_neg (by decide)]

/-- **What becomes of a tank in a tick** after the dead came back.  If it is dead, it is only
carried around the edges and given its points; if it is live, it lives on or dies at the instant. -/
theorem exists_fate (hk : Keyed w.tanks) {now : Time} {id : UInt32} {b : Tank K}
    (hb : (w.returned now).tank? id = some b) :
    ∃ u, (w.tick now).tank? id = some u ∧
      (b.isLive = false → u = (b.wrap w.half).gain (w.points now id)) ∧
      (b.isLive = true → u.isLive = true ∨ u.died = true ∧ u.diedAt = some now) := by
  have hwalled := walled_tank? now id w
  rw [hb, Option.map_some] at hwalled
  obtain ⟨v, hv, hbv⟩ :=
    Table.exists_found_after (fun _ _ h => Tank.Fares.id_eq h) (toll_fares hk now) hwalled
  have htick := tick_tank? now id w
  rw [hv, Option.map_some] at htick
  refine ⟨_, htick, fun hdead => ?_, fun hlive => ?_⟩
  · rw [hbv.dead ((isLive_walled w b).trans hdead), walled_of_dead w hdead]
  · exact hbv.live ((isLive_walled w b).trans hlive)

/-- **What becomes of a power-up in a tick** after the dead came back: it stays as it is, or a tank
picks it up. -/
theorem exists_powerUp_fate (hs : w.Sound) (hp : Keyed w.powerUps) {now : Time} {id : UInt32}
    {b : PowerUp K} (hb : Table.find? id (w.returned now).powerUps = some b) :
    ∃ q, Table.find? id (w.tick now).powerUps = some q ∧
      (q = b ∨ b.died = false ∧ q = b.take now) := by
  have hmoved : Table.find? id (w.moved now).powerUps = some b := hb
  obtain ⟨htick, hpicked⟩ := powerUp_tick hs hp now id
  rw [hmoved, Option.map_some] at htick
  refine ⟨_, htick, ?_⟩
  by_cases hid : id ∈ (w.pickedUp now).map PowerUp.id
  · obtain ⟨c, hc, halive⟩ := hpicked hid
    obtain rfl : c = b := Option.some.inj (hc.symm.trans hmoved)
    rw [if_pos hid]
    exact Or.inr ⟨halive, rfl⟩
  · rw [if_neg hid]
    exact Or.inl rfl

/-! ## 4. The delay -/

/-- A tank that is dead after a tick died in it, or was dead before and is not due. -/
theorem dead_after_tick (hk : Keyed w.tanks) {now : Time} {id : UInt32} {u : Tank K}
    (hu : (w.tick now).tank? id = some u) (hdead : u.isLive = false) :
    u.diedAt = some now ∨
      ∃ t, w.tank? id = some t ∧ t.isLive = false ∧ t.isDue w.respawnDelay now = false ∧
        u = (t.wrap w.half).gain (w.points now id) := by
  obtain ⟨t, ht, _⟩ := tank?_tick hu
  have hb := returned_tank? now id w
  rw [ht, Option.map_some] at hb
  obtain ⟨v, hv, hsame, hlive⟩ := exists_fate hk hb
  obtain rfl : v = u := Option.some.inj (hv.symm.trans hu)
  have hdies : _ → v.diedAt = some now := fun hblive => by
    rcases hlive hblive with hstill | ⟨_, hnow⟩
    · exact absurd (hstill.symm.trans hdead) (by decide)
    · exact hnow
  by_cases hdue : t.isDue w.respawnDelay now = true
  · rw [if_pos hdue] at hdies
    refine Or.inl (hdies ?_)
    simp [Tank.isLive, Tank.revive, Tank.not_disconnected_of_isDue hdue]
  · rw [if_neg hdue] at hdies hsame
    cases htlive : t.isLive with
    | true => exact Or.inl (hdies htlive)
    | false => exact Or.inr ⟨t, ht, htlive, Bool.eq_false_iff.mpr hdue, hsame htlive⟩

/-- **After a tick no tank is overdue.** -/
theorem died_within_delay (hs : w.Sound) {now : Time} {u : Tank K} (hu : u ∈ (w.tick now).tanks)
    (hplayer : u.disconnected = false) (hdied : u.died = true) :
    ∃ since, u.diedAt = some since ∧ now.elapsed since ≤ w.respawnDelay := by
  have hfound : (w.tick now).tank? u.id = some u :=
    (Table.find?_eq_some_iff (tick_keyed now hs.keyed)).mpr ⟨hu, rfl⟩
  have hdead : u.isLive = false := by simp [Tank.isLive, hdied]
  obtain ⟨since, hsince⟩ :=
    Option.isSome_iff_exists.mp (((hs.tick now).tanks u hu).diedAt_of_died hdied hplayer)
  refine ⟨since, hsince, ?_⟩
  rcases dead_after_tick hs.keyed hfound hdead with hnow | ⟨t, _, _, hdue, hsame⟩
  · obtain rfl : now = since := Option.some.inj (hnow.symm.trans hsince)
    simp [Time.elapsed]
  · have hclock : t.diedAt = u.diedAt := by rw [hsame]; rfl
    have htplayer : t.disconnected = u.disconnected := by rw [hsame]; rfl
    refine Nat.le_of_not_lt fun hlong => Bool.eq_false_iff.mp hdue (Tank.isDue_iff.mpr ?_)
    exact ⟨htplayer.trans hplayer, since, hclock.trans hsince, hlong⟩

/-- **After a tick no power-up is overdue.** -/
theorem powerUp_died_within_delay (hs : w.Sound) (hp : Keyed w.powerUps) {now : Time}
    {q : PowerUp K} (hq : q ∈ (w.tick now).powerUps) (hdied : q.died = true) :
    ∃ since, q.diedAt = some since ∧ now.elapsed since ≤ w.respawnDelay := by
  have hfound : Table.find? q.id (w.tick now).powerUps = some q :=
    (Table.find?_eq_some_iff (hp.of_ids_eq (perform_powerUps w (.tick now)))).mpr ⟨hq, rfl⟩
  obtain ⟨since, hsince⟩ :=
    Option.isSome_iff_exists.mp (((hs.tick now).powerUps q hq).mp hdied)
  refine ⟨since, hsince, ?_⟩
  obtain ⟨p, hpfound, _⟩ := Table.exists_found_before
    (fun _ _ h => Table.eq_of_reflTransGen (fun _ _ hchange => hchange.id_eq) h)
    (tick_powerUps now w) hfound
  have hb := returned_powerUp? now q.id w
  rw [hpfound, Option.map_some] at hb
  obtain ⟨r, hr, hends⟩ := exists_powerUp_fate hs hp hb
  obtain rfl : r = q := Option.some.inj (hr.symm.trans hfound)
  rcases hends with hsame | ⟨_, htaken⟩
  · by_cases hdue : p.isDue w.respawnDelay now = true
    · rw [hsame, if_pos hdue] at hdied
      cases hdied
    · rw [hsame, if_neg hdue] at hsince
      exact Nat.le_of_not_lt fun hlong => hdue (PowerUp.isDue_iff.mpr ⟨since, hsince, hlong⟩)
  · rw [htaken] at hsince
    obtain rfl : now = since := Option.some.inj hsince
    simp [Time.elapsed]

/-- A dead tank in a tick: it is left alone if it is not due, and otherwise has its turn to come
back. -/
theorem dead_tank_fate (hk : Keyed w.tanks) (now : Time) {id : UInt32} {t : Tank K}
    (ht : w.tank? id = some t) (hdied : t.died = true) :
    ∃ u, (w.tick now).tank? id = some u ∧
      (t.isDue w.respawnDelay now = false → u = (t.wrap w.half).gain (w.points now id)) ∧
      (t.isDue w.respawnDelay now = true →
        (∃ b, (w.returned now).tank? id = some b ∧ b.isLive = true ∧
          b.hitPoints = Rules.maxHitPoints ∧ b.drive = .hold ∧
          b.location = w.placeAfter (w.tankTurn now id)) ∧
        (u.isLive = true ∨ u.died = true ∧ u.diedAt = some now)) := by
  have hb := returned_tank? now id w
  rw [ht, Option.map_some] at hb
  obtain ⟨u, hu, hdead, hlive⟩ := exists_fate hk hb
  refine ⟨u, hu, fun hidle => ?_, fun hdue => ?_⟩
  · rw [if_neg (Bool.eq_false_iff.mp hidle)] at hdead
    exact hdead (by simp [Tank.isLive, hdied])
  · rw [if_pos hdue] at hb hlive
    have hback : (t.revive (w.placeAfter (w.tankTurn now id))).isLive = true := by
      simp [Tank.isLive, Tank.revive, Tank.not_disconnected_of_isDue hdue]
    exact ⟨⟨_, hb, hback, rfl, rfl, rfl⟩, hlive hback⟩

/-- A power-up in a tick: it moves if it is due to come back and at no other time, and is taken only
if it is there. -/
theorem powerUp_fate (hs : w.Sound) (hp : Keyed w.powerUps) (now : Time) {id : UInt32}
    {p : PowerUp K} (hfound : Table.find? id w.powerUps = some p) :
    ∃ q, Table.find? id (w.tick now).powerUps = some q ∧
      (p.isDue w.respawnDelay now = false →
        q.location = p.location ∧ (p.died = true → q = p)) ∧
      (p.isDue w.respawnDelay now = true →
        q.location = w.placeAfter (w.powerUpTurn now id) ∧
        (q.died = false ∨ q.died = true ∧ q.diedAt = some now)) := by
  have hb := returned_powerUp? now id w
  rw [hfound, Option.map_some] at hb
  obtain ⟨q, hq, hends⟩ := exists_powerUp_fate hs hp hb
  refine ⟨q, hq, fun hidle => ?_, fun hdue => ?_⟩
  · rw [if_neg (Bool.eq_false_iff.mp hidle)] at hends
    rcases hends with rfl | ⟨halive, rfl⟩
    · exact ⟨rfl, fun _ => rfl⟩
    · exact ⟨rfl, fun hdied => absurd (hdied.symm.trans halive) (by decide)⟩
  · rw [if_pos hdue] at hends
    rcases hends with rfl | ⟨_, rfl⟩
    · exact ⟨rfl, Or.inl rfl⟩
    · exact ⟨rfl, Or.inr ⟨rfl, rfl⟩⟩

/-- **Death lasts the delay.**  In every world that can be reached, in whatever order things are
visited, and for a tick at any instant:

* a tank that is dead and whose player has gone, or that is dead for no longer than the delay, is
  left as it is, but for its points and for the edges of the world;
* a tank that has its player and is dead for longer comes back before anything moves, unharmed,
  without orders, at the place that is drawn in its turn, and no place is drawn twice; the tick
  leaves it live, or dead since this instant;
* a power-up that is dead for no longer than the delay is left as it is, and one that is dead for
  longer is put at the place that is drawn in its turn, and is left live or dead since this
  instant; a power-up that is live stays where it is;
* after the tick no tank that has its player, and no power-up, is dead for longer than the delay. -/
theorem death_lasts_the_delay {settings : Settings K} {source : Source}
    (hw : Reachable settings source w) (now : Time) :
    w.respawnDelay = Time.ofMillis settings.respawnRateMs ∧
    (w.tick now).source = w.sourceAfter (w.tanks.countP (Tank.isDue w.respawnDelay now) +
      w.powerUps.countP (PowerUp.isDue w.respawnDelay now)) ∧
    (∀ id t, w.tank? id = some t → t.died = true → ∃ u, (w.tick now).tank? id = some u ∧
      ((t.disconnected = true ∨
          ∀ since, t.diedAt = some since → now.elapsed since ≤ w.respawnDelay) →
        u = (t.wrap w.half).gain (w.points now id)) ∧
      (t.disconnected = false →
        ∀ since, t.diedAt = some since → w.respawnDelay < now.elapsed since →
        (∃ b, (w.returned now).tank? id = some b ∧ b.isLive = true ∧
          b.hitPoints = Rules.maxHitPoints ∧ b.drive = .hold ∧
          b.location = w.placeAfter (w.tankTurn now id)) ∧
        (u.isLive = true ∨ u.died = true ∧ u.diedAt = some now))) ∧
    (∀ id p, Table.find? id w.powerUps = some p →
      ∃ q, Table.find? id (w.tick now).powerUps = some q ∧
      (p.died = true → (∀ since, p.diedAt = some since → now.elapsed since ≤ w.respawnDelay) →
        q = p) ∧
      (p.died = true →
        ∀ since, p.diedAt = some since → w.respawnDelay < now.elapsed since →
        q.location = w.placeAfter (w.powerUpTurn now id) ∧
        (q.died = false ∨ q.died = true ∧ q.diedAt = some now)) ∧
      (p.died = false → q.location = p.location)) ∧
    (∀ t ∈ (w.tick now).tanks, t.disconnected = false → t.died = true →
      ∃ since, t.diedAt = some since ∧ now.elapsed since ≤ w.respawnDelay) ∧
    (∀ p ∈ (w.tick now).powerUps, p.died = true →
      ∃ since, p.diedAt = some since ∧ now.elapsed since ≤ w.respawnDelay) := by
  have hs := hw.sound
  refine ⟨?_, tick_source now w, fun id t ht hdied => ?_, fun id p hp => ?_,
    fun t ht hplayer hdied => died_within_delay hs ht hplayer hdied,
    fun p hp hdied => powerUp_died_within_delay hs hw.indexed.powerUps hp hdied⟩
  · exact hw.fixed_eq.2.1
  · obtain ⟨u, hu, hidle, hdue⟩ := dead_tank_fate hs.keyed now ht hdied
    refine ⟨u, hu, fun hwaits => hidle ?_, fun hplayer since hsince hlong => hdue ?_⟩
    · refine Bool.eq_false_iff.mpr fun hnot => ?_
      obtain ⟨hplayer, since, hsince, hlong⟩ := Tank.isDue_iff.mp hnot
      rcases hwaits with hgone | hshort
      · exact absurd (hgone.symm.trans hplayer) (by decide)
      · exact Nat.not_lt_of_le (hshort since hsince) hlong
    · exact Tank.isDue_iff.mpr ⟨hplayer, since, hsince, hlong⟩
  · obtain ⟨q, hq, hidle, hdue⟩ := powerUp_fate hs hw.indexed.powerUps now hp
    refine ⟨q, hq, fun hdied hshort => (hidle ?_).2 hdied, fun _ since hsince hlong => hdue ?_,
      fun halive => (hidle ?_).1⟩
    · refine Bool.eq_false_iff.mpr fun hnot => ?_
      obtain ⟨since, hsince, hlong⟩ := PowerUp.isDue_iff.mp hnot
      exact Nat.not_lt_of_le (hshort since hsince) hlong
    · exact PowerUp.isDue_iff.mpr ⟨since, hsince, hlong⟩
    · refine Bool.eq_false_iff.mpr fun hnot => ?_
      obtain ⟨since, hsince, _⟩ := PowerUp.isDue_iff.mp hnot
      have hclock : p.died = true :=
        (hs.powerUps p (Table.mem_of_find? hp)).mpr (Option.isSome_iff_exists.mpr ⟨since, hsince⟩)
      exact absurd (hclock.symm.trans halive) (by decide)

theorem half_tick (now : Time) (w : World K) : (w.tick now).half = w.half := rfl

/-- The tank that the duel has killed lies where it is for the delay, and comes back in the first
tick after it. -/
theorem death_lasts_the_delay_duel :
    ∃ t u v, (duel.tick 4).tank? 2 = some t ∧ t.died = true ∧ t.diedAt = some 4 ∧
      ((duel.tick 4).tick 3000004).tank? 2 = some u ∧
      u = (t.wrap duel.half).gain ((duel.tick 4).points 3000004 2) ∧
      ((duel.tick 4).tick 3000005).tank? 2 = some v ∧
      (v.isLive = true ∨ v.died = true ∧ v.diedAt = some 3000005) := by
  have hreached : Reachable duelSettings (Source.ofSeed 8) (duel.tick 4) :=
    reachable_duel.tick 4
  have hdelay : (duel.tick 4).respawnDelay = 3000000 := hreached.fixed_eq.2.1
  have hstate : ((duel.tick 4).tank? 2).map (fun t => (t.died, t.disconnected, t.diedAt))
      = some (true, false, some 4) := by decide +kernel
  obtain ⟨t, ht, hflags⟩ := Option.map_eq_some_iff.mp hstate
  simp only [Prod.mk.injEq] at hflags
  obtain ⟨hdied, hplayer, hclock⟩ := hflags
  obtain ⟨u, hu, hwaits, _⟩ :=
    (death_lasts_the_delay hreached 3000004).2.2.1 2 t ht hdied
  obtain ⟨v, hv, _, hback⟩ :=
    (death_lasts_the_delay hreached 3000005).2.2.1 2 t ht hdied
  rw [half_tick] at hwaits
  refine ⟨t, u, v, ht, hdied, hclock, hu, hwaits (Or.inr fun since hsince => ?_), hv,
    (hback hplayer 4 hclock ?_).2⟩
  · obtain rfl : 4 = since := Option.some.inj (hclock.symm.trans hsince)
    rw [hdelay]
    decide
  · rw [hdelay]
    decide

end World

end TankArena
