import TankArena.Proofs.World.Film
import TankArena.Proofs.World.Supply
import TankArena.Proofs.World.Walls

/-!
# Flights

What the snapshots tell of one shot, from the moment that it is fired.

* A projectile goes one step further from frame to frame (`Projectile.place`), until it falls at an
  edge, in a wall or on a tank; it is shown once as it has fallen, and never again.  `Flight` says
  this of all frames at once, and `Flight.tick` that a tick keeps it.
* The harm of a projectile are its hits.  It has none but in the frame that shows it fallen, and
  there one if it has not been stopped before it could hit (`exists_harm`); and a tick in which it
  has none makes of everything else what it would make without it (`tick_withoutProjectile`).
* A beam is shown as it was fired until its time is over, and a tick after that is what it would
  be without the beam (`tick_withoutBeam`).

What is shown is said in the fields of the records, and a step in its components.
-/

namespace TankArena

open Identified (ident)
open Table (Keyed)

variable {K : Type}

/-! ## 1. One projectile -/

namespace Projectile

/-- A projectile that has come to the end of its flight. -/
def fall (p : Projectile K) : Projectile K := { p with died := true }

variable [Scalar K]

/-- Where a projectile is some ticks later, if nothing stops it: 30 times its direction further with
each tick. -/
def place (p : Projectile K) : Nat → Vec K
  | 0 => p.location
  | n + 1 => ⟨(p.place n).x + p.direction.x * 30.0, (p.place n).y + p.direction.y * 30.0⟩

/-- A projectile some ticks later, if nothing stops it: in its place, and otherwise the same. -/
def after (p : Projectile K) (n : Nat) : Projectile K := { p with location := p.place n }

/-- **A tick later is a step further.** -/
theorem after_succ (p : Projectile K) (n : Nat) : p.after (n + 1) = (p.after n).step := rfl

/-- What a snapshot says of a projectile some ticks later, as it flies or as it has fallen. -/
def recordAfter (p : Projectile K) (n : Nat) (fallen : Bool) : ProjectileRecord K where
  id := p.id
  location := p.place n
  direction := p.direction
  died := fallen
  owner := p.owner

end Projectile

/-! ## 2. The hits of projectiles -/

/-- Whether a hit is the work of the projectile with an id. -/
def Hit.isShotOf (id : UInt32) : Hit K → Bool
  | shot p _ => ident p == id
  | ray _ _ => false

namespace Toll

variable [Scalar K]

theorem countP_hit? (id : UInt32) (toll : Toll K) (p : Projectile K) :
    (toll.hit? p).toList.countP (Hit.isShotOf id)
      = (ident p == id && (toll.hit? p).isSome).toNat := by
  unfold hit?
  cases hdied : p.died with
  | true => simp
  | false =>
    cases hfind : toll.tanks.find? p.hits with
    | none => simp
    | some t => cases hid : ident p == id <;> simp [Hit.isShotOf, hid]

/-- **The projectile with an id** makes one hit at the most.  It falls if it makes one, and makes
none if it has fallen.  By induction on the projectiles: once it has had its turn, its id does not
come again. -/
theorem exists_harm (now : Time) (id : UInt32) (toll : Toll K) {ps : List (Projectile K)}
    (hk : Keyed ps) :
    ∃ harm : Bool, (strikes now toll ps).countP (Hit.isShotOf id) = harm.toNat ∧
      Table.find? id (Table.visit (strike now) toll ps).1
        = (Table.find? id ps).map (fun p => { p with died := p.died || harm }) ∧
      (harm = true → ∃ p, Table.find? id ps = some p ∧ p.died = false) := by
  induction ps generalizing toll with
  | nil => exact ⟨false, rfl, rfl, nofun⟩
  | cons p ps ih =>
    obtain ⟨hnew, hrest⟩ := Table.keyed_cons.mp hk
    obtain ⟨harm, hcount, hfound, hflew⟩ := ih (toll.strike now p).2 hrest
    have hfell := congrArg Prod.fst (strike_eq_hit? now toll p)
    have hkept : ident (toll.strike now p).1 = ident p := World.strike_ident now toll p
    rw [strikes, List.countP_append, countP_hit?, hcount, Table.visit_cons]
    by_cases hid : ident p = id
    · have hnone : harm = false := by
        refine Bool.eq_false_iff.mpr fun hharm => ?_
        obtain ⟨q, hq, _⟩ := hflew hharm
        exact hnew q (Table.mem_of_find? hq) ((Table.ident_of_find? hq).trans hid.symm)
      rw [Table.find?_cons_self (hkept.trans hid), Table.find?_cons_self hid, hfell]
      refine ⟨(toll.hit? p).isSome, by simp [hid, hnone], rfl, fun hhit => ?_⟩
      obtain ⟨x, hx⟩ := Option.isSome_iff_exists.mp hhit
      exact ⟨p, rfl, (hit?_eq_some hx).1⟩
    · rw [Table.find?_cons_other (hkept ▸ hid), Table.find?_cons_other hid]
      exact ⟨harm, by simp [beq_false_of_ne hid], hfound, hflew⟩

end Toll

namespace World

/-- The world without the beam with an id. -/
def withoutBeam (id : UInt32) (w : World K) : World K :=
  { w with beams := w.beams.filter fun b => b.id != id }

variable [Scalar K]

/-! ## 3. One tick -/

/-- Whether an edge or a wall stops a projectile where it is. -/
def stops (w : World K) (p : Projectile K) : Bool :=
  outOfBounds p.location w.half || w.boxes.any fun box => box.contains p.location

/-- The hits of projectiles in a tick. -/
def strikes (now : Time) (w : World K) : List (Hit K) :=
  Toll.strikes now ⟨(w.walled now).tanks, []⟩ (w.walled now).projectiles

/-- How many tanks the projectile with an id hits in a tick. -/
def harm (now : Time) (id : UInt32) (w : World K) : Nat :=
  (w.strikes now).countP (Hit.isShotOf id)

variable {w : World K} {id : UInt32}

/-- A projectile that flies, after its step and the edges and walls. -/
def flown (w : World K) (p : Projectile K) : Projectile K :=
  { p.step with died := p.died || w.stops p.step }

theorem walled_projectiles (now : Time) (w : World K) :
    (w.walled now).projectiles = (w.projectiles.filter fun p => !p.died).map w.flown := by
  change List.map _ (List.map _ (List.map _ _)) = _
  simp only [List.map_map]
  refine List.map_congr_left fun p _ => ?_
  simp only [Function.comp_apply, Projectile.shatter, Projectile.bound, Projectile.step, flown,
    stops, Bool.or_assoc]
  rfl

/-- **The projectile with an id in a tick.**  If it has fallen before, it is swept away.  Otherwise
it goes its step, and falls if it is stopped there or hits.  It hits only if nothing stops it. -/
theorem tick_projectile? (hk : Keyed w.projectiles) (now : Time) (id : UInt32) :
    ∃ hit : Bool, w.harm now id = hit.toNat ∧
      (w.tick now).projectile? id
        = ((w.projectile? id).filter fun p => !p.died).map
            (fun p => { w.flown p with died := (w.flown p).died || hit }) ∧
      (hit = true → ∃ p, w.projectile? id = some p ∧ p.died = false ∧ w.stops p.step = false) := by
  have hkeyed : Keyed (w.walled now).projectiles := by
    rw [walled_projectiles]
    exact (hk.filter _).map fun _ => rfl
  have hwalled : Table.find? id (w.walled now).projectiles
      = ((w.projectile? id).filter fun p => !p.died).map w.flown := by
    rw [walled_projectiles, Table.find?_map (f := w.flown) (fun _ => rfl), Table.find?_filter hk]
    rfl
  obtain ⟨hit, hharm, hfound, hflew⟩ := Toll.exists_harm now id ⟨(w.walled now).tanks, []⟩ hkeyed
  rw [hwalled] at hfound hflew
  refine ⟨hit, hharm, ?_, fun hhit => ?_⟩
  · rw [Option.map_map] at hfound
    exact hfound
  · obtain ⟨q, hq, hqdied⟩ := hflew hhit
    obtain ⟨p, hp, rfl⟩ := Option.map_eq_some_iff.mp hq
    obtain ⟨hfind, _⟩ := Option.filter_eq_some_iff.mp hp
    obtain ⟨hdied, hclear⟩ : p.died = false ∧ w.stops p.step = false :=
      Bool.or_eq_false_iff.mp hqdied
    exact ⟨p, hfind, hdied, hclear⟩

/-- **A tick after the time of a beam** is what it would be without the beam. -/
theorem tick_withoutBeam {now : Time} (h : ∀ b ∈ w.beams, b.id = id → b.isFresh now = false) :
    (w.withoutBeam id).tick now = w.tick now := by
  have hbeams : (w.withoutBeam id).beams.filter (Beam.isFresh now)
      = w.beams.filter (Beam.isFresh now) := by
    rw [withoutBeam, List.filter_filter]
    refine List.filter_congr fun b hb => ?_
    by_cases hid : b.id = id
    · rw [h b hb hid, Bool.false_and]
    · rw [bne_iff_ne.mpr hid, Bool.and_true]
  have hmoved : (w.withoutBeam id).moved now = w.moved now :=
    congrArg (fun beams => { w.moved now with beams := beams }) hbeams
  have htick : ∀ v : World K, v.tick now = (v.moved now).collide now := fun _ => rfl
  rw [htick, htick, hmoved]

end World

/-! ## 4. Flights -/

/-- What is told of a projectile that has flown for some frames, the latest first: its record in
each, and that it has hit nobody. -/
def Projectile.aloft [Scalar K] (p : Projectile K) : Nat → List (List (ProjectileRecord K) × Nat)
  | 0 => []
  | n + 1 => ([p.recordAfter (n + 1) false], 0) :: p.aloft n

/-- What has become of a projectile, and the records and the hits of it in each frame, the latest
first.  `stops` are the places where an edge or a wall stops it. -/
inductive Flight [Scalar K] (stops : Projectile K → Bool) (p : Projectile K) :
    Option (Projectile K) → List (List (ProjectileRecord K) × Nat) → Prop where
  /-- It still flies. -/
  | flying (n : Nat) : Flight stops p (some (p.after n)) (p.aloft n)
  /-- It has just been shown as fallen.  It has hit somebody if nothing else has stopped it. -/
  | down (n : Nat) : Flight stops p (some (p.after (n + 1)).fall)
      (([p.recordAfter (n + 1) true], (!stops (p.after (n + 1))).toNat) :: p.aloft n)
  /-- It is gone, and no frame since then has shown it. -/
  | gone (n m : Nat) : Flight stops p none
      (List.replicate (m + 1) ([], 0) ++
        ([p.recordAfter (n + 1) true], (!stops (p.after (n + 1))).toNat) :: p.aloft n)

/-- **A tick keeps a flight**: the projectile flies on, falls, or is gone. -/
theorem Flight.tick [Scalar K] {stops : Projectile K → Bool} {p : Projectile K}
    {q? : Option (Projectile K)} {told : List (List (ProjectileRecord K) × Nat)}
    (h : Flight stops p q? told) (hflies : p.died = false) {w : World K} {id : UInt32}
    (hk : Keyed w.projectiles) (hstops : w.stops = stops) (hq : w.projectile? id = q?)
    (now : Time) :
    Flight stops p ((w.tick now).projectile? id)
      (((((w.tick now).projectile? id).map Projectile.record).toList, w.harm now id) :: told) := by
  obtain ⟨hit, hharm, hafter, hhit⟩ := World.tick_projectile? hk now id
  rw [hq] at hafter hhit
  cases h with
  | flying n =>
    have hdied : ∀ k, (p.after k).died = false := fun _ => hflies
    have htick : (w.tick now).projectile? id
        = some { p.after (n + 1) with died := stops (p.after (n + 1)) || hit } := by
      rw [hafter, Option.filter_some, if_pos (by simp [hdied]), Option.map_some, World.flown,
        hdied, hstops, ← Projectile.after_succ, Bool.false_or]
    have hdown : Flight stops p _ _ := Flight.down n
    rw [htick, hharm]
    cases hstopped : stops (p.after (n + 1)) with
    | true =>
      have hnone : hit = false := by
        refine Bool.eq_false_iff.mpr fun htrue => ?_
        obtain ⟨q, hq, _, hclear⟩ := hhit htrue
        obtain rfl := Option.some.inj hq
        rw [hstops, ← Projectile.after_succ, hstopped] at hclear
        cases hclear
      rw [hstopped] at hdown
      rw [hnone]
      exact hdown
    | false =>
      rw [hstopped] at hdown
      cases hit with
      | true => exact hdown
      | false =>
        have hflying : Flight stops p _ _ := Flight.flying (n + 1)
        have hsame : { p.after (n + 1) with died := false } = p.after (n + 1) := by
          rw [← hdied (n + 1)]
        have hrecord : (p.after (n + 1)).record = p.recordAfter (n + 1) false := by
          rw [← hflies]
          rfl
        rw [Bool.false_or, hsame, Option.map_some, hrecord]
        exact hflying
  | down n =>
    have hnone : hit = false := by
      refine Bool.eq_false_iff.mpr fun htrue => ?_
      obtain ⟨q, hq, hdied, _⟩ := hhit htrue
      obtain rfl := Option.some.inj hq
      cases hdied
    rw [hafter, hharm, hnone]
    exact Flight.gone n 0
  | gone n m =>
    have hnone : hit = false := by
      refine Bool.eq_false_iff.mpr fun htrue => ?_
      obtain ⟨q, hq, _⟩ := hhit htrue
      cases hq
    rw [hafter, hharm, hnone]
    exact Flight.gone n (m + 1)

/-- The last instant at which a beam is to be seen. -/
def Beam.lastSeen (b : Beam K) : Time := b.createdAt + Time.ofMillis Rules.beamLifetimeMs

theorem Beam.isFresh_eq (now : Time) (b : Beam K) : b.isFresh now = decide (now ≤ b.lastSeen) := by
  unfold isFresh Time.elapsed lastSeen
  rw [decide_eq_decide, Nat.sub_le_iff_le_add, Nat.add_comm]

/-- What is told of a beam in some frames, the latest first. -/
structure Shining [Scalar K] (id : UInt32) (b : Beam K) (b? : Option (Beam K))
    (frames : List (Frame K)) : Prop where
  /-- It is there as long as no frame was after its time. -/
  seen : b? = if ∀ f ∈ frames, f.now ≤ b.lastSeen then some b else none
  /-- Until its time is over a frame shows it as it was fired, and then none does. -/
  shown : (frames.map Frame.now).Pairwise (fun later earlier => earlier ≤ later) →
    ∀ f ∈ frames, f.beams id = if f.now ≤ b.lastSeen then
      [{ id := b.id, origin := b.origin, direction := b.direction, owner := b.owner }] else []
  /-- After its time nothing depends on it. -/
  dark : ∀ f ∈ frames, b.lastSeen < f.now →
    (f.before.withoutBeam id).tick f.now = f.before.tick f.now

namespace Shining

variable [Scalar K]

theorem start (id : UInt32) (b : Beam K) : Shining id b (some b) [] where
  seen := (if_pos nofun).symm
  shown := fun _ => nofun
  dark := nofun

/-- **A frame keeps what is told of a beam.** -/
theorem frame {id : UInt32} {b : Beam K} {f : Frame K} {frames : List (Frame K)}
    (h : Shining id b (f.before.beam? id) frames) (hi : f.before.Indexed)
    (hshuffle : (f.before.tick f.now).Shuffle f.after) :
    Shining id b (f.after.beam? id) (f :: frames) := by
  have hticked : (f.before.tick f.now).Indexed := hi.perform (.tick f.now)
  have hafter : f.after.beam? id
      = if ∀ g ∈ f :: frames, g.now ≤ b.lastSeen then some b else none := by
    have hfresh : (f.before.tick f.now).beam? id
        = (f.before.beam? id).filter (Beam.isFresh f.now) := Table.find?_filter hi.beams id _
    rw [hshuffle.beam?_eq hticked, hfresh, h.seen]
    simp only [List.forall_mem_cons]
    by_cases hbefore : ∀ g ∈ frames, g.now ≤ b.lastSeen
    · rw [if_pos hbefore, Option.filter_some, Beam.isFresh_eq]
      by_cases hnow : f.now ≤ b.lastSeen
      · rw [if_pos (decide_eq_true hnow), if_pos ⟨hnow, hbefore⟩]
      · rw [if_neg (by simp [hnow]), if_neg fun hall => hnow hall.1]
    · rw [if_neg hbefore, if_neg fun hall => hbefore hall.2, Option.filter_none]
  refine ⟨hafter, fun htimes => ?_, ?_⟩
  · obtain ⟨hlast, hrest⟩ := List.pairwise_cons.mp htimes
    refine List.forall_mem_cons.mpr ⟨?_, h.shown hrest⟩
    rw [Frame.beams_eq (hticked.shuffle hshuffle), hafter]
    -- The latest frame decides, as no frame before it was later.
    have hall : (∀ g ∈ f :: frames, g.now ≤ b.lastSeen) ↔ f.now ≤ b.lastSeen := by
      refine ⟨fun hg => hg f List.mem_cons_self, fun hf => List.forall_mem_cons.mpr ⟨hf, ?_⟩⟩
      exact fun g hg => Nat.le_trans (hlast g.now (List.mem_map_of_mem hg)) hf
    simp only [hall]
    split <;> rfl
  · refine List.forall_mem_cons.mpr ⟨fun hlate => ?_, h.dark⟩
    refine World.tick_withoutBeam fun x hx hid => ?_
    have hfound : f.before.beam? id = some x := (Table.find?_eq_some_iff hi.beams).mpr ⟨hx, hid⟩
    obtain rfl : b = x := by
      rw [h.seen, Option.ite_none_right_eq_some] at hfound
      exact Option.some.inj hfound.2
    rw [Beam.isFresh_eq, decide_eq_false_iff_not]
    exact Nat.not_le_of_lt hlate

end Shining

namespace World

variable [Scalar K] {start w v : World K} {past later : List (Moment K)} {settings : Settings K}
  {source : Source} {op : Operation K} {id : UInt32}

theorem Course.stops_eq (h : Course start past w) : w.stops = start.stops := by
  obtain ⟨_, _, hwalls, hsize⟩ := h.fixed_eq
  funext p
  unfold stops half boxes
  rw [hwalls, hsize]

/-- What the main trigger fires starts at the tank and flies along its aim. -/
theorem exists_projectile_of_fired (hk : Keyed w.tanks) {key : UInt32} {t : Time}
    (hpull : op.pull? = some (key, .main, t)) (hfired : (w.perform op).2.shot? = some id) :
    ∃ b, (op.heeded w).tank? key = some b ∧
      (w.perform op).1.projectile? id = some ⟨id, b.location, b.aim, key, false⟩ := by
  obtain ⟨rfl, s, hshot, hperform⟩ := perform_of_fired hk hpull hfired
  obtain ⟨b, hb, _⟩ := Option.bind_eq_some_iff.mp hshot
  rw [hperform, release_main (heededBy_keyed hk op) hb hshot, heededBy_nextObject]
  exact ⟨b, hb, (Table.find?_put _ _ _).trans (if_pos rfl)⟩

end World

end TankArena
