import Mathlib.Logic.Function.Iterate
import TankArena.Proofs.World.Hits

/-!
# Meetings that no order shows in

In a tick things meet one after the other, and what one of them does to a tank or to a source of
random places the next one finds.  Each kind of meeting has a condition under which this makes no
difference: what becomes of each thing is then a function of this thing and of the others, in no
order.  This file gives these functions.

* Places are drawn by one thing at the most: `visit_deal`.
* Projectiles are a `Volley` if they do not compete for tanks: `Volley.visit_strike`.
* Tanks are a `Harvest` if they do not compete for power-ups: `Harvest.visit_collect`.
* Beams need no condition for what becomes of the tanks.  Who gets the points depends on the first
  beam that hits a tank: `foldl_burn`.

The owners of the deadly hits stand in the order of the hits, so about them only what is the same up
to a permutation is said.
-/

namespace TankArena

open Table (Keyed)

/-! ## 1. Lists -/

namespace Table

section Lists

variable {β γ δ σ : Type}

theorem any_congr_mem {p q : β → Bool} {xs : List β} (h : ∀ x ∈ xs, p x = q x) :
    xs.any p = xs.any q := by
  rw [Bool.eq_iff_iff, List.any_eq_true, List.any_eq_true]
  exact exists_congr fun x => and_congr_right fun hx => by rw [h x hx]

/-- Where one thing at the most is of a kind, nothing beside a thing of the kind is. -/
theorem not_beside {p : β → Bool} {before after : List β} {x : β}
    (h : (before ++ x :: after).countP p ≤ 1) (hx : p x = true) :
    ∀ y ∈ before ++ after, p y = false := by
  rw [List.countP_append, List.countP_cons_of_pos hx] at h
  have hnone : (before ++ after).countP p = 0 := by
    rw [List.countP_append]
    omega
  exact fun y hy => Bool.eq_false_iff.mpr (List.countP_eq_zero.mp hnone y hy)

theorem not_after {p : β → Bool} {xs : List β} {x : β} (h : (x :: xs).countP p ≤ 1)
    (hx : p x = true) : ∀ y ∈ xs, p y = false := by
  have hbeside : ([] ++ x :: xs).countP p ≤ 1 := h
  exact not_beside hbeside hx

/-- A visit that gives the things that are due something that is drawn for them. -/
def deal (due : β → Bool) (draw : σ → γ × σ) (give : γ → β → β) (s : σ) (x : β) : β × σ :=
  if due x then (give (draw s).1 x, (draw s).2) else (x, s)

/-- **Draws.**  When one thing at the most is due, everything that is drawn is the first draw. -/
theorem visit_deal (due : β → Bool) (draw : σ → γ × σ) (give : γ → β → β) {xs : List β}
    (h : xs.countP due ≤ 1) (s : σ) :
    visit (deal due draw give) s xs
      = (xs.map fun x => if due x then give (draw s).1 x else x,
          if xs.any due then (draw s).2 else s) := by
  induction xs generalizing s with
  | nil => rfl
  | cons x xs ih =>
    rw [visit_cons]
    by_cases hdue : due x = true
    · have hnone : ∀ y ∈ xs, due y = false := not_after h hdue
      have hcount : xs.countP due = 0 := List.countP_eq_zero.mpr fun y hy => by simp [hnone y hy]
      have hrest : ∀ s : σ, (xs.map fun y => if due y then give (draw s).1 y else y) = xs :=
        fun s => (List.map_congr_left fun y hy => by simp [hnone y hy]).trans (List.map_id' xs)
      have hany : xs.any due = false := List.any_eq_false.mpr fun y hy => by simp [hnone y hy]
      simp [deal, hdue, hany, hrest, ih (by omega)]
    · rw [List.countP_cons_of_neg hdue] at h
      simp [deal, hdue, ih h]

/-- What the first thing of a kind is like does not depend on the order when all things of the kind
are alike. -/
theorem find?_map_perm {p : β → Bool} {f : β → γ} {xs ys : List β}
    (h : ∀ x ∈ xs, ∀ y ∈ xs, p x = true → p y = true → f x = f y) (hp : xs.Perm ys) :
    (ys.find? p).map f = (xs.find? p).map f := by
  cases hy : ys.find? p with
  | none =>
    have hnone : xs.find? p = none :=
      List.find?_eq_none.mpr fun x hx => List.find?_eq_none.mp hy x (hp.mem_iff.mp hx)
    rw [hnone]
  | some y =>
    have hmem : y ∈ xs := hp.mem_iff.mpr (List.mem_of_find?_eq_some hy)
    have hsome : (xs.find? p).isSome := List.find?_isSome.mpr ⟨y, hmem, List.find?_some hy⟩
    obtain ⟨x, hx⟩ := Option.isSome_iff_exists.mp hsome
    rw [hx, Option.map_some, Option.map_some,
      h x (List.mem_of_find?_eq_some hx) y hmem (List.find?_some hx) (List.find?_some hy)]

/-- One step of a count by things: the things that are met now give an entry each and none later,
and the others give the entry that they give later. -/
theorem replicate_append_perm {met : β → Bool} {change : β → β} {later all : β → Option γ} {c : γ}
    {xs : List β} (hmet : ∀ x ∈ xs, met x = true → all x = some c ∧ later (change x) = none)
    (hother : ∀ x ∈ xs, met x = false → all x = later (change x)) :
    (List.replicate (xs.countP met) c ++ (xs.map change).filterMap later).Perm
      (xs.filterMap all) := by
  induction xs with
  | nil => exact List.Perm.refl _
  | cons x xs ih =>
    have hrest := ih (fun y hy => hmet y (List.mem_cons_of_mem x hy))
      fun y hy => hother y (List.mem_cons_of_mem x hy)
    rw [List.map_cons]
    cases hx : met x with
    | true =>
      obtain ⟨hall, hlater⟩ := hmet x List.mem_cons_self hx
      rw [List.countP_cons_of_pos hx, List.replicate_succ, List.filterMap_cons_none hlater,
        List.filterMap_cons_some hall]
      exact hrest.cons c
    | false =>
      rw [List.countP_cons_of_neg (Bool.eq_false_iff.mp hx)]
      have hsame := hother x List.mem_cons_self hx
      cases hlater : later (change x) with
      | none =>
        rw [List.filterMap_cons_none hlater, List.filterMap_cons_none (hsame.trans hlater)]
        exact hrest
      | some d =>
        rw [List.filterMap_cons_some hlater, List.filterMap_cons_some (hsame.trans hlater)]
        exact List.perm_middle.trans (hrest.cons d)

end Lists

end Table

variable {K : Type} [Scalar K]

/-- **Coming back** draws a place for each tank, and then for each power-up, that is due. -/
theorem World.respawn_deals (now : Time) (w : World K) :
    w.respawn now =
      let tanks := Table.visit (Table.deal (Tank.isDue w.respawnDelay now)
        (fun source => source.place w.half) Tank.revive) w.source w.tanks
      let powerUps := Table.visit (Table.deal (PowerUp.isDue w.respawnDelay now)
        (fun source => source.place w.half) PowerUp.revive) tanks.2 w.powerUps
      { w with tanks := tanks.1, powerUps := powerUps.1, source := powerUps.2 } := by
  unfold World.respawn
  rfl

/-! ## 2. Projectiles -/

namespace Projectile

/-- Whether the projectile, if it is not spent yet, hits a tank. -/
def aims (p : Projectile K) (t : Tank K) : Bool := !p.died && p.hits t

/-- What the projectile does to a tank. -/
def wound (now : Time) (p : Projectile K) (t : Tank K) : Tank K :=
  if p.aims t then t.damage now else t

/-- The projectile after it has met some tanks: spent if it aims at one of them. -/
def spend (ts : List (Tank K)) (p : Projectile K) : Projectile K :=
  { p with died := p.died || ts.any p.aims }

theorem wound_id (now : Time) (p : Projectile K) (t : Tank K) : (p.wound now t).id = t.id := by
  unfold wound
  split
  · exact (Tank.fade_damage now t).id_eq
  · rfl

/-- What a projectile aims at depends on where, who and how alive a tank is. -/
theorem aims_congr (p : Projectile K) {t u : Tank K} (hlive : u.isLive = t.isLive)
    (hid : u.id = t.id) (hlocation : u.location = t.location) : p.aims u = p.aims t := by
  unfold aims hits
  rw [hlive, hid, hlocation]

theorem aims_of_not_live (p : Projectile K) {t : Tank K} (h : t.isLive = false) :
    p.aims t = false := by
  simp [aims, hits, h]

end Projectile

namespace Tank

/-- How many of some projectiles aim at the tank. -/
def aimed (ps : List (Projectile K)) (t : Tank K) : Nat := ps.countP fun p => p.aims t

/-- The tank after some projectiles: every one that aims at it has hit it. -/
def batter (now : Time) (ps : List (Projectile K)) (t : Tank K) : Tank K :=
  (damage now)^[t.aimed ps] t

/-- Who gets the point if projectiles kill the tank: as many of them aim at it as it has hit
points. -/
def slayer? (ps : List (Projectile K)) (t : Tank K) : Option UInt32 :=
  if t.aimed ps = t.hitPoints.toNat then (ps.find? fun p => p.aims t).map Projectile.owner
  else none

theorem aimed_cons_of_aims {p : Projectile K} {t : Tank K} (h : p.aims t = true)
    (ps : List (Projectile K)) : t.aimed (p :: ps) = t.aimed ps + 1 :=
  List.countP_cons_of_pos (p := fun p : Projectile K => p.aims t) h

theorem aimed_cons_of_not_aims {p : Projectile K} {t : Tank K} (h : ¬p.aims t = true)
    (ps : List (Projectile K)) : t.aimed (p :: ps) = t.aimed ps :=
  List.countP_cons_of_neg (p := fun p : Projectile K => p.aims t) h

theorem aimed_eq_zero_iff {ps : List (Projectile K)} {t : Tank K} :
    t.aimed ps = 0 ↔ ∀ p ∈ ps, p.aims t = false := by
  simp [aimed, List.countP_eq_zero]

end Tank

/-- Projectiles that do not compete for tanks: each aims at one tank at the most, no more aim at a
tank than it has hit points, and if as many aim at it they are of one player.  Nothing aims at a
tank that is not live. -/
structure Volley (ts : List (Tank K)) (ps : List (Projectile K)) : Prop where
  one_target : ∀ p ∈ ps, ts.countP p.aims ≤ 1
  no_excess : ∀ t ∈ ts, t.aimed ps ≤ t.hitPoints.toNat
  one_owner : ∀ t ∈ ts, t.aimed ps = t.hitPoints.toNat →
    ∀ p ∈ ps, ∀ q ∈ ps, p.aims t = true → q.aims t = true → p.owner = q.owner

instance (ts : List (Tank K)) (ps : List (Projectile K)) : Decidable (Volley ts ps) :=
  decidable_of_iff
    ((∀ p ∈ ps, ts.countP p.aims ≤ 1) ∧ (∀ t ∈ ts, t.aimed ps ≤ t.hitPoints.toNat) ∧
      ∀ t ∈ ts, t.aimed ps = t.hitPoints.toNat →
        ∀ p ∈ ps, ∀ q ∈ ps, p.aims t = true → q.aims t = true → p.owner = q.owner)
    ⟨fun ⟨htarget, hexcess, howner⟩ => ⟨htarget, hexcess, howner⟩,
      fun h => ⟨h.one_target, h.no_excess, h.one_owner⟩⟩

namespace Toll

/-- A projectile that aims at no tank does nothing. -/
theorem strike_idle (now : Time) {toll : Toll K} {p : Projectile K}
    (h : ∀ t ∈ toll.tanks, p.aims t = false) : toll.strike now p = (p, toll) := by
  unfold strike
  by_cases hdied : p.died = true
  · rw [if_pos hdied]
  · have hmiss : toll.tanks.find? p.hits = none := by
      refine List.find?_eq_none.mpr fun t ht => ?_
      have haims := h t ht
      unfold Projectile.aims at haims
      simpa [hdied] using haims
    rw [if_neg hdied, hmiss]

/-- A projectile that aims at one tank hits this one, wherever it stands. -/
theorem strike_between (now : Time) {before after : List (Tank K)} {t : Tank K}
    {p : Projectile K} (hk : Keyed (before ++ t :: after)) (haims : p.aims t = true)
    (hothers : ∀ u ∈ before ++ after, p.aims u = false) (scorers : List UInt32) :
    strike now ⟨before ++ t :: after, scorers⟩ p
      = ({ p with died := true }, ⟨before ++ t.damage now :: after,
          if t.isFrail then scorers ++ [p.owner] else scorers⟩) := by
  unfold Projectile.aims at haims hothers
  rw [Bool.and_eq_true, Bool.not_eq_true'] at haims
  simp only [haims.1, Bool.not_false, Bool.true_and] at hothers
  have hbefore : before.find? p.hits = none :=
    List.find?_eq_none.mpr fun u hu => by simp [hothers u (List.mem_append_left _ hu)]
  have hfind : (before ++ t :: after).find? p.hits = some t := by
    rw [List.find?_append, hbefore, Option.none_or, List.find?_cons_of_pos haims.2]
  unfold strike
  rw [if_neg (Bool.eq_false_iff.mp haims.1), hfind]
  dsimp only
  rw [← Table.modify_between hk (Tank.damage now)]
  rfl

/-- **One projectile.**  With one target at the most, a projectile does to every tank what it does
to it, whichever it comes to first. -/
theorem strike_eq (now : Time) {ts : List (Tank K)} {p : Projectile K} (hk : Keyed ts)
    (hone : ts.countP p.aims ≤ 1) (scorers : List UInt32) :
    strike now ⟨ts, scorers⟩ p
      = (p.spend ts, ⟨ts.map (p.wound now),
          scorers ++ List.replicate (ts.countP fun t => p.aims t && t.isFrail) p.owner⟩) := by
  have hcalm : ∀ us : List (Tank K), (∀ u ∈ us, p.aims u = false) →
      us.any p.aims = false ∧ us.map (p.wound now) = us ∧
        (us.countP fun t => p.aims t && t.isFrail) = 0 := by
    refine fun us h => ⟨?_, ?_, ?_⟩
    · exact List.any_eq_false.mpr fun u hu => by simp [h u hu]
    · exact (List.map_congr_left fun u hu => by simp [Projectile.wound, h u hu]).trans
        (List.map_id' us)
    · exact List.countP_eq_zero.mpr fun u hu => by simp [h u hu]
  by_cases hnone : ∀ t ∈ ts, p.aims t = false
  · obtain ⟨hany, hmap, hcount⟩ := hcalm ts hnone
    rw [strike_idle now hnone]
    simp [Projectile.spend, hany, hmap, hcount]
  · push Not at hnone
    obtain ⟨t, ht, haims⟩ := hnone
    rw [Bool.ne_false_iff] at haims
    obtain ⟨before, after, rfl⟩ := List.append_of_mem ht
    have hothers := Table.not_beside hone haims
    obtain ⟨hany, hmap, hcount⟩ := hcalm before fun u hu => hothers u (List.mem_append_left _ hu)
    obtain ⟨hany', hmap', hcount'⟩ := hcalm after fun u hu => hothers u (List.mem_append_right _ hu)
    rw [strike_between now hk haims hothers]
    cases hfrail : t.isFrail <;>
      simp [Projectile.spend, Projectile.wound, haims, hfrail, hmap, hmap', hcount, hcount']

end Toll

/-! ## 3. Volleys -/

namespace Volley

variable {now : Time} {ts : List (Tank K)} {p : Projectile K} {ps : List (Projectile K)}

/-- **What the first projectile leaves for the others.**  They aim at what they aimed at before: a
tank that dies of the first hit had no more than one hit point, so nothing else aims at it. -/
theorem aims_wound (h : Volley ts (p :: ps)) (now : Time) {t : Tank K} (ht : t ∈ ts)
    {q : Projectile K} (hq : q ∈ ps) : q.aims (p.wound now t) = q.aims t := by
  unfold Projectile.wound
  by_cases haims : p.aims t = true
  · rw [if_pos haims]
    have hlive := Tank.isLive_damage now t
    by_cases hfrail : t.isFrail = true
    · have hexcess := h.no_excess t ht
      have hone := Tank.isFrail_iff.mp hfrail
      rw [Tank.aimed_cons_of_aims haims] at hexcess
      rw [hfrail, Bool.not_true, Bool.and_false] at hlive
      rw [q.aims_of_not_live hlive, Tank.aimed_eq_zero_iff.mp (by omega) q hq]
    · rw [Bool.eq_false_iff.mpr hfrail, Bool.not_false, Bool.and_true] at hlive
      have hfade := Tank.fade_damage now t
      exact q.aims_congr hlive hfade.id_eq hfade.location_eq
  · rw [if_neg haims]

/-- As many of the others aim at a tank as before the first hit. -/
theorem aimed_wound (h : Volley ts (p :: ps)) (now : Time) {t : Tank K} (ht : t ∈ ts) :
    (p.wound now t).aimed ps = t.aimed ps :=
  List.countP_congr fun _ hq => by rw [h.aims_wound now ht hq]

/-- The hit points of a tank count down with the projectiles that aim at it. -/
theorem hitPoints_wound (h : Volley ts (p :: ps)) (now : Time) {t : Tank K} (ht : t ∈ ts) :
    (p.wound now t).hitPoints.toNat + t.aimed (p :: ps) = t.hitPoints.toNat + t.aimed ps := by
  have hexcess := h.no_excess t ht
  unfold Projectile.wound
  by_cases haims : p.aims t = true
  · rw [Tank.aimed_cons_of_aims haims] at hexcess ⊢
    rw [if_pos haims, Tank.hitPoints_damage]
    omega
  · rw [Tank.aimed_cons_of_not_aims haims, if_neg haims]

/-- **Without its first projectile a volley is one**, on the tanks after the first hit. -/
theorem tail (h : Volley ts (p :: ps)) (now : Time) : Volley (ts.map (p.wound now)) ps where
  one_target := by
    intro q hq
    have hsame : (ts.map (p.wound now)).countP q.aims = ts.countP q.aims := by
      rw [List.countP_map]
      exact List.countP_congr fun t ht => by rw [Function.comp_apply, h.aims_wound now ht hq]
    rw [hsame]
    exact h.one_target q (List.mem_cons_of_mem p hq)
  no_excess := by
    intro u hu
    obtain ⟨t, ht, rfl⟩ := List.mem_map.mp hu
    have hexcess := h.no_excess t ht
    have hpoints := h.hitPoints_wound now ht
    rw [h.aimed_wound now ht]
    omega
  one_owner := by
    intro u hu hall q hq r hr hqu hru
    obtain ⟨t, ht, rfl⟩ := List.mem_map.mp hu
    have hpoints := h.hitPoints_wound now ht
    rw [h.aimed_wound now ht] at hall
    rw [h.aims_wound now ht hq] at hqu
    rw [h.aims_wound now ht hr] at hru
    exact h.one_owner t ht (by omega) q (List.mem_cons_of_mem p hq) r (List.mem_cons_of_mem p hr)
      hqu hru

/-- What becomes of the other projectiles does not depend on the first hit. -/
theorem spend_wound (h : Volley ts (p :: ps)) (now : Time) {q : Projectile K} (hq : q ∈ ps) :
    q.spend (ts.map (p.wound now)) = q.spend ts := by
  have hsame : (ts.map (p.wound now)).any q.aims = ts.any q.aims :=
    List.any_map.trans (Table.any_congr_mem fun t ht => h.aims_wound now ht hq)
  unfold Projectile.spend
  rw [hsame]

/-- What becomes of a tank is the first hit and then the others. -/
theorem batter_wound (h : Volley ts (p :: ps)) (now : Time) {t : Tank K} (ht : t ∈ ts) :
    (p.wound now t).batter now ps = t.batter now (p :: ps) := by
  unfold Tank.batter
  rw [h.aimed_wound now ht]
  unfold Projectile.wound
  by_cases haims : p.aims t = true
  · rw [if_pos haims, Tank.aimed_cons_of_aims haims, Function.iterate_succ_apply]
  · rw [if_neg haims, Tank.aimed_cons_of_not_aims haims]

/-- The tank that the first projectile kills gives its point to the owner, and to nobody later. -/
theorem slayer?_of_frail (h : Volley ts (p :: ps)) (now : Time) {t : Tank K} (ht : t ∈ ts)
    (haims : p.aims t = true) (hfrail : t.isFrail = true) :
    t.slayer? (p :: ps) = some p.owner ∧ (p.wound now t).slayer? ps = none := by
  have hexcess := h.no_excess t ht
  have hone := Tank.isFrail_iff.mp hfrail
  rw [Tank.aimed_cons_of_aims haims] at hexcess
  constructor
  · have hfirst : (p :: ps).find? (fun q => q.aims t) = some p := List.find?_cons_of_pos haims
    unfold Tank.slayer?
    rw [Tank.aimed_cons_of_aims haims, if_pos (by omega), hfirst, Option.map_some]
  · have hnone : (p.wound now t).aimed ps = 0 := by
      rw [h.aimed_wound now ht]
      omega
    unfold Tank.slayer?
    rw [List.find?_eq_none.mpr (List.countP_eq_zero.mp hnone), Option.map_none, ite_self]

/-- The next projectile that aims at a tank on which a full volley falls has the same owner. -/
theorem owner_next (h : Volley ts (p :: ps)) (now : Time) {t : Tank K} (ht : t ∈ ts)
    (haims : p.aims t = true) (hall : t.aimed (p :: ps) = t.hitPoints.toNat)
    (hmore : 0 < t.aimed ps) :
    (ps.find? fun q => q.aims (p.wound now t)).map Projectile.owner = some p.owner := by
  rw [← h.aimed_wound now ht] at hmore
  obtain ⟨q, hq⟩ := Option.isSome_iff_exists.mp
    (List.find?_isSome.mpr (List.countP_pos_iff.mp hmore))
  have hmem : q ∈ ps := List.mem_of_find?_eq_some hq
  have hqaims : q.aims (p.wound now t) = true :=
    List.find?_some (p := fun q : Projectile K => q.aims (p.wound now t)) hq
  rw [h.aims_wound now ht hmem] at hqaims
  rw [hq, Option.map_some, h.one_owner t ht hall p List.mem_cons_self q
    (List.mem_cons_of_mem p hmem) haims hqaims]

/-- Any other tank gives its point to the same player before and after the first hit.  If the first
projectile hits it, more than that one have to aim at it for a point. -/
theorem slayer?_wound (h : Volley ts (p :: ps)) (now : Time) {t : Tank K} (ht : t ∈ ts)
    (hkeeps : (p.aims t && t.isFrail) = false) :
    t.slayer? (p :: ps) = (p.wound now t).slayer? ps := by
  by_cases haims : p.aims t = true
  · have hmore : 1 < t.hitPoints.toNat := by
      rw [haims, Bool.true_and, Bool.eq_false_iff] at hkeeps
      exact Nat.lt_of_not_le (Tank.isFrail_iff.not.mp hkeeps)
    have hpoints := h.hitPoints_wound now ht
    have hcount := Tank.aimed_cons_of_aims haims ps
    have hfirst : (p :: ps).find? (fun q => q.aims t) = some p := List.find?_cons_of_pos haims
    unfold Tank.slayer?
    rw [h.aimed_wound now ht, hfirst, Option.map_some]
    by_cases hall : t.aimed (p :: ps) = t.hitPoints.toNat
    · rw [if_pos hall, if_pos (by omega), h.owner_next now ht haims hall (by omega)]
    · rw [if_neg hall, if_neg (by omega)]
  · have hsame : p.wound now t = t := if_neg haims
    have hfind : (p :: ps).find? (fun q => q.aims t) = ps.find? fun q => q.aims t :=
      List.find?_cons_of_neg haims
    unfold Tank.slayer?
    rw [hsame, Tank.aimed_cons_of_not_aims haims, hfind]

/-- **A volley, thing by thing.** -/
theorem visit_strike (h : Volley ts ps) (now : Time) (hk : Keyed ts) (scorers : List UInt32) :
    (Table.visit (Toll.strike now) ⟨ts, scorers⟩ ps).1 = ps.map (Projectile.spend ts) ∧
    (Table.visit (Toll.strike now) ⟨ts, scorers⟩ ps).2.tanks = ts.map (Tank.batter now ps) ∧
    (Table.visit (Toll.strike now) ⟨ts, scorers⟩ ps).2.scorers.Perm
      (scorers ++ ts.filterMap (Tank.slayer? ps)) := by
  induction ps generalizing ts scorers with
  | nil =>
    refine ⟨rfl, (List.map_id' ts).symm, ?_⟩
    have hnone : ts.filterMap (Tank.slayer? []) = [] :=
      List.filterMap_eq_nil_iff.mpr fun t _ => ite_self _
    rw [hnone, List.append_nil]
    exact List.Perm.refl _
  | cons p ps ih =>
    have hstrike := Toll.strike_eq now hk (h.one_target p List.mem_cons_self) scorers
    obtain ⟨hprojectiles, htanks, hscorers⟩ := ih (h.tail now) (hk.map (p.wound_id now))
      (scorers ++ List.replicate (ts.countP fun t => p.aims t && t.isFrail) p.owner)
    rw [Table.visit_cons, hstrike]
    refine ⟨?_, ?_, ?_⟩
    · rw [List.map_cons, hprojectiles]
      exact congrArg _ (List.map_congr_left fun q hq => h.spend_wound now hq)
    · rw [htanks, List.map_map]
      exact List.map_congr_left fun t ht => h.batter_wound now ht
    · refine hscorers.trans ?_
      rw [List.append_assoc]
      refine List.Perm.append_left scorers (Table.replicate_append_perm ?_ ?_)
      · intro t ht hkilled
        rw [Bool.and_eq_true] at hkilled
        exact h.slayer?_of_frail now ht hkilled.1 hkilled.2
      · exact fun t ht hkeeps => h.slayer?_wound now ht hkeeps

end Volley

/-! ## 4. Power-ups -/

namespace Tank

/-- Whether the tank picks up a power-up. -/
def picks (t : Tank K) (p : PowerUp K) : Bool := t.isLive && t.reaches p

/-- What the tank does to a power-up. -/
def grab (now : Time) (t : Tank K) (p : PowerUp K) : PowerUp K :=
  if t.picks p then p.take now else p

/-- The tank after it has picked up what it can of some power-ups. -/
def load (ps : List (PowerUp K)) (t : Tank K) : Tank K := reload^[ps.countP t.picks] t

/-- **One tank.**  It does to every power-up what it does to it, and is loaded once for each that it
picks up. -/
theorem collect_eq (now : Time) (ps : List (PowerUp K)) (t : Tank K) :
    t.collect now ps = (t.load ps, ps.map (t.grab now)) := by
  unfold collect load
  by_cases hlive : t.isLive = true
  · have hpicks : t.picks = t.reaches := funext fun p => by rw [picks, hlive, Bool.true_and]
    rw [if_pos hlive, List.foldl_const, hpicks, List.countP_eq_length_filter]
    exact congrArg _ (List.map_congr_left fun p _ => by rw [grab, hpicks])
  · have hpicks : ∀ p, t.picks p = false := fun p => by
      rw [picks, Bool.eq_false_iff.mpr hlive, Bool.false_and]
    have hcount : ps.countP t.picks = 0 := List.countP_eq_zero.mpr fun p _ => by simp [hpicks p]
    have hsame : ps.map (t.grab now) = ps :=
      (List.map_congr_left fun p _ => by simp [grab, hpicks p]).trans (List.map_id' ps)
    rw [if_neg hlive, hcount, hsame]
    rfl

end Tank

/-- The power-up after some tanks: taken if one of them picks it up. -/
def PowerUp.spend (now : Time) (ts : List (Tank K)) (p : PowerUp K) : PowerUp K :=
  if ts.any fun t => t.picks p then p.take now else p

/-- Power-ups for which tanks do not compete: each is picked up by one tank at the most. -/
def Harvest (ts : List (Tank K)) (ps : List (PowerUp K)) : Prop :=
  ∀ p ∈ ps, (ts.countP fun t => t.picks p) ≤ 1

instance (ts : List (Tank K)) (ps : List (PowerUp K)) : Decidable (Harvest ts ps) :=
  inferInstanceAs (Decidable (∀ p ∈ ps, _))

namespace Harvest

variable {now : Time} {t : Tank K} {ts : List (Tank K)} {ps : List (PowerUp K)}

/-- **What the first tank leaves for the others.**  They pick up what they picked up before. -/
theorem picks_grab (h : Harvest (t :: ts) ps) (now : Time) {u : Tank K} (hu : u ∈ ts)
    {p : PowerUp K} (hp : p ∈ ps) : u.picks (t.grab now p) = u.picks p := by
  unfold Tank.grab
  by_cases hpicks : t.picks p = true
  · have hother : u.picks p = false :=
      Table.not_after (p := fun v : Tank K => v.picks p) (h p hp) hpicks u hu
    rw [if_pos hpicks, hother]
    simp [Tank.picks, Tank.reaches, PowerUp.take]
  · rw [if_neg hpicks]

/-- **Without its first tank a harvest is one**, on the power-ups after this tank. -/
theorem tail (h : Harvest (t :: ts) ps) (now : Time) : Harvest ts (ps.map (t.grab now)) := by
  intro q hq
  obtain ⟨p, hp, rfl⟩ := List.mem_map.mp hq
  have hsame : (ts.countP fun u => u.picks (t.grab now p)) = ts.countP fun u => u.picks p :=
    List.countP_congr fun u hu => by rw [h.picks_grab now hu hp]
  rw [hsame]
  exact Nat.le_trans (List.Sublist.countP_le (List.sublist_cons_self t ts)) (h p hp)

/-- What the other tanks pick up does not depend on the first one. -/
theorem load_grab (h : Harvest (t :: ts) ps) (now : Time) {u : Tank K} (hu : u ∈ ts) :
    u.load (ps.map (t.grab now)) = u.load ps := by
  have hsame : (ps.map (t.grab now)).countP u.picks = ps.countP u.picks := by
    rw [List.countP_map]
    exact List.countP_congr fun p hp => by rw [Function.comp_apply, h.picks_grab now hu hp]
  unfold Tank.load
  rw [hsame]

/-- What becomes of a power-up is what the first tank does to it and then the others. -/
theorem spend_grab (h : Harvest (t :: ts) ps) (now : Time) {p : PowerUp K} (hp : p ∈ ps) :
    (t.grab now p).spend now ts = p.spend now (t :: ts) := by
  have hsame : (ts.any fun u => u.picks (t.grab now p)) = ts.any fun u => u.picks p :=
    Table.any_congr_mem fun u hu => h.picks_grab now hu hp
  unfold PowerUp.spend
  rw [hsame, List.any_cons, Tank.grab]
  by_cases hpicks : t.picks p = true
  · have hnone : (ts.any fun u => u.picks p) = false := by
      refine List.any_eq_false.mpr fun u hu => ?_
      rw [Table.not_after (p := fun v : Tank K => v.picks p) (h p hp) hpicks u hu]
      exact Bool.false_ne_true
    simp [hpicks, hnone]
  · simp [hpicks]

/-- **A harvest, thing by thing.** -/
theorem visit_collect (h : Harvest ts ps) (now : Time) :
    Table.visit (Tank.collect now) ps ts = (ts.map (Tank.load ps), ps.map (PowerUp.spend now ts)) := by
  induction ts generalizing ps with
  | nil => exact congrArg _ (List.map_id' ps).symm
  | cons t ts ih =>
    have hloads : ts.map (Tank.load (ps.map (t.grab now))) = ts.map (Tank.load ps) :=
      List.map_congr_left fun u hu => h.load_grab now hu
    have hspends : (ps.map (t.grab now)).map (PowerUp.spend now ts)
        = ps.map (PowerUp.spend now (t :: ts)) :=
      List.map_map.trans (List.map_congr_left fun p hp => h.spend_grab now hp)
    rw [Table.visit_cons, Tank.collect_eq, ih (h.tail now), hloads, hspends, List.map_cons]

end Harvest

/-! ## 5. Beams -/

namespace Tank

/-- The tank after some beams: dead if one of them hits it. -/
def scorch (now : Time) (bs : List (Beam K)) (t : Tank K) : Tank K :=
  if bs.any fun b => b.hits t then t.kill now else t

/-- Who gets the point if beams kill the tank: the owner of the first that hits it. -/
def burner? (bs : List (Beam K)) (t : Tank K) : Option UInt32 :=
  (bs.find? fun b => b.hits t).map Beam.owner

end Tank

/-- Beams that do not compete for points: those that hit a tank are of one player. -/
def Blaze (ts : List (Tank K)) (bs : List (Beam K)) : Prop :=
  ∀ t ∈ ts, ∀ b ∈ bs, ∀ c ∈ bs, b.hits t = true → c.hits t = true → b.owner = c.owner

instance (ts : List (Tank K)) (bs : List (Beam K)) : Decidable (Blaze ts bs) :=
  inferInstanceAs (Decidable (∀ t ∈ ts, ∀ b ∈ bs, ∀ c ∈ bs, _))

/-- No beam hits a dead tank. -/
theorem Beam.not_hits_kill (b : Beam K) (now : Time) (t : Tank K) : b.hits (t.kill now) = false := by
  simp [hits, Tank.isLive_kill]

/-- **All beams, tank by tank.** -/
theorem Toll.foldl_burn (now : Time) (bs : List (Beam K)) (toll : Toll K) :
    (bs.foldl (burn now) toll).tanks = toll.tanks.map (Tank.scorch now bs) ∧
    (bs.foldl (burn now) toll).scorers.Perm
      (toll.scorers ++ toll.tanks.filterMap (Tank.burner? bs)) := by
  induction bs generalizing toll with
  | nil =>
    have hnone : toll.tanks.filterMap (Tank.burner? []) = [] :=
      List.filterMap_eq_nil_iff.mpr fun _ _ => rfl
    refine ⟨(List.map_id' toll.tanks).symm, ?_⟩
    rw [hnone, List.append_nil]
    exact List.Perm.refl _
  | cons b bs ih =>
    obtain ⟨htanks, hscorers⟩ := ih (toll.burn now b)
    rw [List.foldl_cons]
    constructor
    · rw [htanks]
      refine List.map_map.trans (List.map_congr_left fun t _ => ?_)
      by_cases hhits : b.hits t = true
      · simp [Tank.scorch, hhits, Beam.not_hits_kill]
      · simp [Tank.scorch, hhits]
    · refine hscorers.trans ?_
      unfold burn
      rw [List.append_assoc]
      refine List.Perm.append_left _ (Table.replicate_append_perm ?_ ?_)
      · intro t _ hhits
        simp [Tank.burner?, hhits, Beam.not_hits_kill]
      · intro t _ hmiss
        simp [Tank.burner?, hmiss]

end TankArena
