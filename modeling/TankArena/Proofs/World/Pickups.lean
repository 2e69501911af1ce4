import TankArena.Proofs.World.Order
import TankArena.Proofs.World.Passage

/-!
# Who picks up what

In a tick each live tank picks up all it reaches, one tank after the other.  This file takes that
apart into single pickups, each of one power-up by one tank.

* `Picks` are pickups one after the other: at its moment the taker of each is live and reaches a
  power-up that is there.
* They bring each taker a charge, as far as it can carry them (`Picks.loaded`), and each power-up is
  among them once at the most (`Picks.powerUps`).
* The tanks of a tick act by pickups (`exists_tickPicks`), and what they pick up are the power-ups
  that are there before the collisions and gone after them (`pickedUp`).

So a tick brings all tanks together one charge for each power-up that is gone, and no more.
-/

namespace TankArena

open Table (Keyed)

variable {K : Type}

/-! ## 1. Charges -/

namespace Tank

theorem reload_ammo (t : Tank K) : t.reload.ammo.toNat = min (t.ammo.toNat + 1) 2 := by
  by_cases hroom : t.ammo < Rules.maxAmmo
  · have hlt : t.ammo.toNat < 2 := UInt8.lt_iff_toNat_lt.mp hroom
    have hmore : t.reload.ammo = t.ammo + 1 := if_pos hroom
    have hadd : (t.ammo + 1).toNat = (t.ammo.toNat + 1) % 256 := UInt8.toNat_add _ _
    rw [hmore, hadd]
    omega
  · have hge : 2 ≤ t.ammo.toNat := Nat.le_of_not_lt fun hlt => hroom (UInt8.lt_iff_toNat_lt.mpr hlt)
    have hfull : t.reload.ammo.toNat = 2 := congrArg UInt8.toNat (if_neg hroom)
    omega

/-- A tank that keeps its charges. -/
structure Stows (t u : Tank K) : Prop where
  id_eq : u.id = t.id
  ammo_eq : u.ammo = t.ammo

theorem Stows.trans {t u v : Tank K} (h : t.Stows u) (h' : u.Stows v) : t.Stows v :=
  ⟨h'.id_eq.trans h.id_eq, h'.ammo_eq.trans h.ammo_eq⟩

/-- A tank that is loaded once for each time its id is among some ids, as far as it can carry. -/
structure Loaded (ids : List UInt32) (t u : Tank K) : Prop where
  id_eq : u.id = t.id
  ammo_eq : u.ammo.toNat = min (t.ammo.toNat + ids.count t.id) 2

theorem Loaded.trans {ids ids' : List UInt32} {t u v : Tank K} (h : t.Loaded ids u)
    (h' : u.Loaded ids' v) : t.Loaded (ids ++ ids') v where
  id_eq := h'.id_eq.trans h.id_eq
  ammo_eq := by
    have hlast := h'.ammo_eq
    rw [h.id_eq, h.ammo_eq] at hlast
    rw [hlast, List.count_append]
    omega

variable [Scalar K]

theorem stows_withstands (now : Time) : Withstands now (Stows (K := K)) where
  refl := fun _ => ⟨rfl, rfl⟩
  trans := fun _ _ _ => Stows.trans
  wrap := fun _ _ => ⟨rfl, rfl⟩
  rebound := fun boxes t => by
    unfold Tank.rebound
    split <;> exact ⟨rfl, rfl⟩
  damage := fun t => by
    unfold Tank.damage
    split <;> exact ⟨rfl, rfl⟩
  kill := fun _ => ⟨rfl, rfl⟩
  gain := fun _ _ => ⟨rfl, rfl⟩

end Tank

/-! ## 2. Pickups -/

/-- A tank that picks up a power-up, both as they are at that moment. -/
structure Pickup (K : Type) where
  taker : Tank K
  powerUp : PowerUp K

namespace Pickup

/-- The ids of what is picked up. -/
def ids (xs : List (Pickup K)) : List UInt32 := xs.map fun x => x.powerUp.id

/-- The ids of the tanks that pick up, one for each pickup. -/
def takers (xs : List (Pickup K)) : List UInt32 := xs.map fun x => x.taker.id

end Pickup

/-- Tanks, and power-ups that they may pick up. -/
structure Stock (K : Type) where
  tanks : List (Tank K)
  powerUps : List (PowerUp K)

namespace Stock

/-- The stock after a pickup. -/
def pick (now : Time) (s : Stock K) (x : Pickup K) : Stock K where
  tanks := Table.modify x.taker.id Tank.reload s.tanks
  powerUps := Table.modify x.powerUp.id (PowerUp.take now) s.powerUps

theorem pick_keyed {s : Stock K} (hk : Keyed s.tanks) (now : Time) (x : Pickup K) :
    Keyed (s.pick now x).tanks :=
  hk.modify _ fun _ => rfl

theorem pick_powerUps_keyed {s : Stock K} (hk : Keyed s.powerUps) (now : Time) (x : Pickup K) :
    Keyed (s.pick now x).powerUps :=
  hk.modify _ fun _ => rfl

variable [Scalar K]

/-- Pickups, one after the other, that lead from one stock to another.  At its moment each is of a
live tank that reaches a power-up which is there. -/
inductive Picks (now : Time) : Stock K → List (Pickup K) → Stock K → Prop where
  | done (s : Stock K) : Picks now s [] s
  | pick {s s' : Stock K} {x : Pickup K} {xs : List (Pickup K)} :
      x.taker ∈ s.tanks → x.powerUp ∈ s.powerUps → x.taker.isLive = true →
      x.taker.reaches x.powerUp = true → Picks now (s.pick now x) xs s' → Picks now s (x :: xs) s'

namespace Picks

variable {now : Time} {s s' s'' : Stock K} {xs ys : List (Pickup K)}

theorem append (h : Picks now s xs s') (h' : Picks now s' ys s'') : Picks now s (xs ++ ys) s'' := by
  induction h with
  | done => exact h'
  | pick ht hp hlive hreach _ ih => exact Picks.pick ht hp hlive hreach (ih h')

theorem keyed (h : Picks now s xs s') (ht : Keyed s.tanks) (hp : Keyed s.powerUps) :
    Keyed s'.tanks ∧ Keyed s'.powerUps := by
  induction h with
  | done => exact ⟨ht, hp⟩
  | @pick s s' x xs _ _ _ _ _ ih => exact ih (pick_keyed ht now x) (pick_powerUps_keyed hp now x)

/-! ## 3. What pickups bring -/

/-- **Takers are loaded.**  A tank has a charge more for each of its pickups, as far as it can carry
them. -/
theorem loaded (h : Picks now s xs s') (hammo : ∀ t ∈ s.tanks, t.ammo.toNat ≤ 2) :
    List.Forall₂ (Tank.Loaded (Pickup.takers xs)) s.tanks s'.tanks := by
  induction h with
  | done s => exact List.forall₂_same.mpr fun t ht => ⟨rfl, (Nat.min_eq_left (hammo t ht)).symm⟩
  | @pick s s' x xs _ _ _ _ _ ih =>
    have hfirst : List.Forall₂ (Tank.Loaded [x.taker.id]) s.tanks (s.pick now x).tanks := by
      simp only [Stock.pick, Table.modify, List.forall₂_map_right_iff, List.forall₂_same,
        Tank.ident_eq]
      intro t ht
      by_cases hid : t.id = x.taker.id
      · rw [if_pos hid]
        exact ⟨rfl, by rw [Tank.reload_ammo, hid, List.count_singleton_self]⟩
      · rw [if_neg hid]
        refine ⟨rfl, ?_⟩
        rw [List.count_singleton, beq_false_of_ne (Ne.symm hid)]
        exact (Nat.min_eq_left (hammo t ht)).symm
    have hroom : ∀ u ∈ (s.pick now x).tanks, u.ammo.toNat ≤ 2 :=
      Table.forall_of_forall₂ (fun t u htu _ => htu.ammo_eq ▸ Nat.min_le_right _ _) hfirst hammo
    exact Table.forall₂_trans (fun _ _ _ htu huv => htu.trans huv) hfirst (ih hroom)

/-- Who picks up is a tank of the beginning, perhaps with more charges. -/
theorem exists_taker (h : Picks now s xs s') :
    ∀ x ∈ xs, x.taker.isLive = true ∧ ∃ t ∈ s.tanks, ∃ ammo, x.taker = { t with ammo := ammo } := by
  induction h with
  | done => exact fun x hx => absurd hx List.not_mem_nil
  | @pick s s' first xs ht _ hlive _ _ ih =>
    intro x hx
    rcases List.mem_cons.mp hx with rfl | hx
    · exact ⟨hlive, x.taker, ht, x.taker.ammo, rfl⟩
    · obtain ⟨hxlive, u, hu, ammo, hxu⟩ := ih x hx
      obtain ⟨t, ht, rfl⟩ := List.mem_map.mp hu
      refine ⟨hxlive, t, ht, ammo, ?_⟩
      rw [hxu]
      split <;> rfl

/-- **Power-ups are taken once.** -/
theorem powerUps (h : Picks now s xs s') (hk : Keyed s.powerUps) :
    s'.powerUps = s.powerUps.map (fun p => if p.id ∈ Pickup.ids xs then p.take now else p) ∧
      (Pickup.ids xs).Nodup ∧
      ∀ id ∈ Pickup.ids xs, ∃ p ∈ s.powerUps, p.id = id ∧ p.died = false := by
  induction h with
  | done s =>
    exact ⟨by simp [Pickup.ids], List.nodup_nil, fun id hid => absurd hid List.not_mem_nil⟩
  | @pick s s' x xs _ hp _ hreach _ ih =>
    obtain ⟨hrest, hnodup, hthere⟩ := ih (pick_powerUps_keyed hk now x)
    have halive : x.powerUp.died = false := by
      simp only [Tank.reaches, Bool.and_eq_true, Bool.not_eq_true'] at hreach
      exact hreach.1
    -- What is picked up first is gone, so none of the later pickups is of it.
    have hnew : x.powerUp.id ∉ Pickup.ids xs := by
      intro hid
      obtain ⟨q, hq, hqid, hqalive⟩ := hthere _ hid
      obtain ⟨p, _, rfl⟩ := List.mem_map.mp hq
      by_cases hpid : p.id = x.powerUp.id
      · rw [PowerUp.ident_eq, if_pos hpid] at hqalive
        cases hqalive
      · rw [PowerUp.ident_eq, if_neg hpid] at hqid
        exact hpid hqid
    refine ⟨?_, List.nodup_cons.mpr ⟨hnew, hnodup⟩, fun id hid => ?_⟩
    · simp only [hrest, Stock.pick, Table.modify, List.map_map]
      refine List.map_congr_left fun p _ => ?_
      rw [Function.comp_apply, PowerUp.ident_eq]
      have hmem : p.id ∈ Pickup.ids (x :: xs) ↔ p.id = x.powerUp.id ∨ p.id ∈ Pickup.ids xs :=
        List.mem_cons
      by_cases hpid : p.id = x.powerUp.id
      · rw [if_pos hpid, if_pos (hmem.mpr (Or.inl hpid)),
          if_neg (show (p.take now).id ∉ _ from fun h => hnew (hpid ▸ h))]
      · simp only [hmem, hpid, false_or, if_false]
    · rcases List.mem_cons.mp hid with rfl | hid
      · exact ⟨x.powerUp, hp, rfl, halive⟩
      · obtain ⟨q, hq, hqid, hqalive⟩ := hthere id hid
        obtain ⟨p, hpmem, rfl⟩ := List.mem_map.mp hq
        by_cases hpid : p.id = x.powerUp.id
        · rw [PowerUp.ident_eq, if_pos hpid] at hqalive
          cases hqalive
        · rw [PowerUp.ident_eq, if_neg hpid] at hqid hqalive
          exact ⟨p, hpmem, hqid, hqalive⟩

end Picks

/-! ## 4. Tanks act by pickups -/

/-- **One tank.**  By induction on the power-ups that it has not looked at yet. -/
theorem collect_picks (now : Time) {before after : List (Tank K)} (seen : List (PowerUp K))
    {ps : List (PowerUp K)} {t : Tank K} (hlive : t.isLive = true)
    (hk : Keyed (before ++ t :: after)) (hp : Keyed (seen ++ ps)) :
    ∃ xs, Picks now ⟨before ++ t :: after, seen ++ ps⟩ xs
      ⟨before ++ (ps.filter t.reaches).foldl (fun t _ => t.reload) t :: after,
        seen ++ ps.map fun p => if t.reaches p then p.take now else p⟩ := by
  induction ps generalizing t seen with
  | nil => exact ⟨[], Picks.done _⟩
  | cons p ps ih =>
    by_cases hreach : t.reaches p = true
    · -- The tank is loaded where it stands, so it reaches what it reached before.
      have hstands : t.reload.reaches = t.reaches := rfl
      have hloaded : Keyed (before ++ t.reload :: after) := by
        rw [← Table.modify_between hk Tank.reload]
        exact hk.modify _ fun _ => rfl
      have htaken : Keyed ((seen ++ [p.take now]) ++ ps) := by
        have hkeyed := hp.modify p.id (f := PowerUp.take now) fun _ => rfl
        rwa [← PowerUp.ident_eq p, Table.modify_between hp, List.append_cons seen] at hkeyed
      obtain ⟨xs, hxs⟩ := ih (seen ++ [p.take now]) (t := t.reload) hlive hloaded htaken
      refine ⟨⟨t, p⟩ :: xs, Picks.pick (by simp) (by simp) hlive hreach ?_⟩
      have hpick : Stock.pick now ⟨before ++ t :: after, seen ++ p :: ps⟩ ⟨t, p⟩
          = ⟨before ++ t.reload :: after, (seen ++ [p.take now]) ++ ps⟩ := by
        have htanks := Table.modify_between hk Tank.reload
        have hpowerUps := Table.modify_between hp (PowerUp.take now)
        rw [List.append_cons seen (p.take now)] at hpowerUps
        exact congrArg₂ Stock.mk htanks hpowerUps
      rw [hpick, List.filter_cons_of_pos hreach, List.foldl_cons, List.map_cons, if_pos hreach]
      simpa only [hstands, List.append_assoc, List.singleton_append] using hxs
    · rw [List.append_cons seen] at hp
      obtain ⟨xs, hxs⟩ := ih (seen ++ [p]) hlive hk hp
      refine ⟨xs, ?_⟩
      rw [List.filter_cons_of_neg hreach, List.map_cons, if_neg hreach]
      simpa only [List.append_assoc, List.singleton_append] using hxs

/-- **All tanks.**  By induction on the tanks that have not picked up yet. -/
theorem visit_collect_picks (now : Time) (before : List (Tank K)) {ts : List (Tank K)}
    {ps : List (PowerUp K)} (hk : Keyed (before ++ ts)) (hp : Keyed ps) :
    ∃ xs, Picks now ⟨before ++ ts, ps⟩ xs
      ⟨before ++ (Table.visit (Tank.collect now) ps ts).1,
        (Table.visit (Tank.collect now) ps ts).2⟩ := by
  induction ts generalizing before ps with
  | nil => exact ⟨[], Picks.done _⟩
  | cons t ts ih =>
    have hone : ∃ xs, Picks now ⟨before ++ t :: ts, ps⟩ xs
        ⟨before ++ (t.collect now ps).1 :: ts, (t.collect now ps).2⟩ := by
      unfold Tank.collect
      by_cases hlive : t.isLive = true
      · rw [if_pos hlive]
        exact collect_picks now [] hlive hk hp
      · rw [if_neg hlive]
        exact ⟨[], Picks.done _⟩
    obtain ⟨xs, hxs⟩ := hone
    obtain ⟨htanks, hpowerUps⟩ := hxs.keyed hk hp
    rw [List.append_cons before] at htanks
    obtain ⟨ys, hys⟩ := ih (before ++ [(t.collect now ps).1]) htanks hpowerUps
    refine ⟨xs ++ ys, hxs.append ?_⟩
    rw [Table.visit_cons]
    simpa only [List.append_assoc, List.singleton_append] using hys

end Stock

/-! ## 5. A tick -/

/-- A power-up before a tick and at its collisions: it was due and is at another place, or it was
not due and is as it was. -/
def PowerUp.Returns (delay : Nat) (now : Time) (p b : PowerUp K) : Prop :=
  if p.isDue delay now then ∃ location, b = p.revive location else b = p

theorem PowerUp.Returns.id_eq {delay : Nat} {now : Time} {p b : PowerUp K}
    (h : p.Returns delay now b) : b.id = p.id := by
  unfold PowerUp.Returns at h
  split at h
  · obtain ⟨_, rfl⟩ := h
    rfl
  · rw [h]

namespace World

variable [Scalar K] {w : World K} {now : Time} {xs : List (Pickup K)}

/-- The pickups of a tick. -/
def TickPicks (now : Time) (w : World K) (xs : List (Pickup K)) : Prop :=
  Stock.Picks now ⟨(w.struck now).1.tanks, (w.moved now).powerUps⟩ xs
    ⟨(w.gathered now).tanks, (w.tick now).powerUps⟩

/-- What is picked up in a tick: the power-ups that are there before the collisions and gone after
them. -/
def pickedUp (now : Time) (w : World K) : List (PowerUp K) :=
  (w.moved now).powerUps.filter fun p =>
    !p.died && (Table.find? p.id (w.tick now).powerUps).any PowerUp.died

/-- Beam charges of all tanks together. -/
def totalAmmo (w : World K) : Nat := (w.tanks.map fun t => t.ammo.toNat).sum

theorem moved_powerUps_keyed (h : Keyed w.powerUps) (now : Time) :
    Keyed (w.moved now).powerUps :=
  h.of_ids_eq (Table.ids_eq_of_forall₂
    (fun _ _ hc => Table.eq_of_reflTransGen (fun _ _ hchange => hchange.id_eq) hc)
    (moved_powerUps now w))

/-- **The tanks of a tick act by pickups.** -/
theorem exists_tickPicks (hk : Keyed w.tanks) (hp : Keyed w.powerUps) (now : Time) :
    ∃ xs, w.TickPicks now xs := by
  have hstruck : Keyed (w.struck now).1.tanks :=
    (struck_tanks w.respawnDelay now hk).keyed
      ((walled_tanks w.respawnDelay now w).keyed ((moved_tanks now w).keyed hk))
  exact Stock.visit_collect_picks now [] hstruck (moved_powerUps_keyed hp now)

/-- The tanks of a tick stow their charges up to the power-ups. -/
theorem struck_stows (now : Time) (w : World K) :
    List.Forall₂ Tank.Stows w.tanks (w.struck now).1.tanks := by
  have hback : List.Forall₂ Tank.Stows w.tanks (w.returned now).tanks := by
    refine (returned_tanks now w).imp fun t b hreturns => ?_
    rcases hreturns.same_or_back with rfl | ⟨spot, rfl⟩
    · exact ⟨rfl, rfl⟩
    · exact ⟨rfl, rfl⟩
  have hstep : List.Forall₂ Tank.Stows (w.returned now).tanks (w.driven now).tanks := by
    refine Table.forall₂_map_self (fun t => ?_) (w.returned now).tanks
    obtain ⟨_, _, _, hstep⟩ := t.step_eq
    rw [hstep]
    exact ⟨rfl, rfl⟩
  have htrans : ∀ t u v : Tank K, t.Stows u → u.Stows v → t.Stows v := fun _ _ _ => Tank.Stows.trans
  exact Table.forall₂_trans htrans hback (Table.forall₂_trans htrans hstep
    (struck_of_withstands (Tank.stows_withstands now) w))

namespace TickPicks

/-- **What is picked up is gone,** and the other power-ups are as they were. -/
theorem powerUps_eq (h : w.TickPicks now xs) (hp : Keyed w.powerUps) :
    (w.tick now).powerUps
        = (w.moved now).powerUps.map (fun p => if p.id ∈ Pickup.ids xs then p.take now else p) ∧
      ((w.pickedUp now).map PowerUp.id).Perm (Pickup.ids xs) := by
  have hmoved := moved_powerUps_keyed hp now
  obtain ⟨hpowerUps, hnodup, hthere⟩ := Stock.Picks.powerUps h hmoved
  refine ⟨hpowerUps, ?_⟩
  have hpicked : w.pickedUp now
      = (w.moved now).powerUps.filter fun p => decide (p.id ∈ Pickup.ids xs) := by
    refine List.filter_congr fun p hpmem => ?_
    have hafter : Table.find? p.id (w.tick now).powerUps
        = some (if p.id ∈ Pickup.ids xs then p.take now else p) := by
      have hfound := (Table.find?_eq_some_iff hmoved).mpr ⟨hpmem, rfl⟩
      rw [PowerUp.ident_eq] at hfound
      have htick : (w.tick now).powerUps = _ := hpowerUps
      rw [htick, Table.find?_map (fun q => by split <;> rfl), hfound, Option.map_some]
    rw [hafter, Option.any_some]
    by_cases hid : p.id ∈ Pickup.ids xs
    · obtain ⟨q, hq, hqid, hqalive⟩ := hthere _ hid
      obtain rfl : q = p := hmoved.eq_of_ident_eq hq hpmem hqid
      simp [hid, hqalive, PowerUp.take]
    · simp [hid]
  have hids : ((w.pickedUp now).map PowerUp.id).Nodup := by
    rw [hpicked]
    exact hmoved.filter _
  refine (List.perm_ext_iff_of_nodup hids hnodup).mpr fun id => ?_
  rw [hpicked, List.mem_map]
  constructor
  · rintro ⟨p, hpmem, rfl⟩
    exact of_decide_eq_true (List.mem_filter.mp hpmem).2
  · intro hid
    obtain ⟨p, hpmem, rfl, _⟩ := hthere id hid
    exact ⟨p, List.mem_filter.mpr ⟨hpmem, decide_eq_true hid⟩, rfl⟩

/-- **Who picks up is loaded.** -/
theorem loaded (h : w.TickPicks now xs) (hs : w.Sound) :
    List.Forall₂ (Tank.Loaded (Pickup.takers xs)) w.tanks (w.tick now).tanks := by
  have hbefore := struck_stows now w
  have hroom : ∀ t ∈ (w.struck now).1.tanks, t.ammo.toNat ≤ 2 :=
    Table.forall_of_forall₂ (fun t u htu hle => htu.ammo_eq ▸ hle) hbefore
      fun t ht => UInt8.le_iff_toNat_le.mp (hs.tanks t ht).ammo_le
  have hload := Stock.Picks.loaded h hroom
  have hafter := tick_of_withstands (Tank.stows_withstands now) w
  have hstart : List.Forall₂ (Tank.Loaded (Pickup.takers xs)) w.tanks (w.gathered now).tanks :=
    Table.forall₂_trans (fun t u v htu huv =>
      ⟨huv.id_eq.trans htu.id_eq, by rw [huv.ammo_eq, htu.ammo_eq, htu.id_eq]⟩) hbefore hload
  exact Table.forall₂_trans (fun t u v htu huv =>
    ⟨huv.id_eq.trans htu.id_eq, by rw [huv.ammo_eq, htu.ammo_eq]⟩) hstart hafter

end TickPicks

/-- **One power-up in a tick**, before the collisions and after them. -/
theorem powerUp_tick (hs : w.Sound) (hp : Keyed w.powerUps) (now : Time) (id : UInt32) :
    Table.find? id (w.tick now).powerUps
        = (Table.find? id (w.moved now).powerUps).map (fun b =>
            if id ∈ (w.pickedUp now).map PowerUp.id then b.take now else b) ∧
      (id ∈ (w.pickedUp now).map PowerUp.id →
        ∃ b, Table.find? id (w.moved now).powerUps = some b ∧ b.died = false) := by
  obtain ⟨xs, hxs⟩ := exists_tickPicks hs.keyed hp now
  obtain ⟨hpowerUps, hperm⟩ := hxs.powerUps_eq hp
  have hmoved := moved_powerUps_keyed hp now
  constructor
  · rw [hpowerUps, Table.find?_map (fun p => by split <;> rfl)]
    refine Option.map_congr fun b hb => ?_
    have hid : b.id = id := Table.ident_of_find? hb
    simp only [hid, hperm.mem_iff]
  · intro hid
    obtain ⟨b, hb, rfl⟩ := List.mem_map.mp hid
    obtain ⟨hbmem, hpicked⟩ := List.mem_filter.mp hb
    rw [Bool.and_eq_true] at hpicked
    exact ⟨b, (Table.find?_eq_some_iff hmoved).mpr ⟨hbmem, rfl⟩, by simpa using hpicked.1⟩

/-- **One power-up before the collisions.**  It has come back if it was due. -/
theorem powerUp_moved {id : UInt32} {b : PowerUp K}
    (hb : Table.find? id (w.moved now).powerUps = some b) :
    ∃ p, Table.find? id w.powerUps = some p ∧ p.Returns w.respawnDelay now b := by
  have hrespawn : ∀ v : World K,
      List.Forall₂ (PowerUp.Returns v.respawnDelay now) v.powerUps (v.respawn now).powerUps := by
    intro v
    refine Table.visit_forall₂ (fun source p => ?_) _ v.powerUps
    by_cases hdue : p.isDue v.respawnDelay now = true
    · rw [PowerUp.Returns, if_pos hdue, if_pos hdue]
      exact ⟨_, rfl⟩
    · rw [PowerUp.Returns, if_neg hdue, if_neg hdue]
  have hmoved := hrespawn { w with ticks := w.ticks + 1 }.sweep
  exact Table.exists_found_before (fun p b h => PowerUp.Returns.id_eq h) hmoved hb

/-- **A tick brings no more charges than it takes power-ups.** -/
theorem totalAmmo_tick (hs : w.Sound) (hp : Keyed w.powerUps) (now : Time) :
    (w.tick now).totalAmmo ≤ w.totalAmmo + (w.pickedUp now).length := by
  obtain ⟨xs, hxs⟩ := exists_tickPicks hs.keyed hp now
  have hsum : ∀ {ts us : List (Tank K)}, List.Forall₂ (Tank.Loaded (Pickup.takers xs)) ts us →
      (us.map fun u => u.ammo.toNat).sum
        ≤ (ts.map fun t => t.ammo.toNat + (Pickup.takers xs).count (Identified.ident t)).sum := by
    intro ts us h
    induction h with
    | nil => exact Nat.le_refl _
    | cons htu _ ih =>
      rw [List.map_cons, List.sum_cons, List.map_cons, List.sum_cons, htu.ammo_eq]
      exact Nat.add_le_add (Nat.min_le_left _ _) ih
  have hshare := Table.sum_count hs.keyed (Pickup.takers xs)
  have hlength : (Pickup.takers xs).length = (w.pickedUp now).length := by
    have hperm := (hxs.powerUps_eq hp).2.length_eq
    rw [List.length_map] at hperm
    rw [hperm, Pickup.takers, Pickup.ids, List.length_map, List.length_map]
  have hall := hsum (hxs.loaded hs)
  rw [List.sum_map_add, hshare] at hall
  rw [← hlength]
  exact hall.trans (Nat.add_le_add_left List.countP_le_length _)

end World

end TankArena
