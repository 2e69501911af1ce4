import TankArena.Proofs.World.Contact
import TankArena.Proofs.World.Soundness

/-!
# Hits

Whatever a tick does to the life of a tank it does by hits, one after the other: a projectile hits
one tank, a beam hits several.  A `Hit` holds what hits and the tank that is hit, as it is at that
moment, and `Toll.Hits` says that a sequence of hits leads from one toll to another.

* Projectiles and beams act by hits of their own (`visit_strike_hits`, `foldl_burn_hits`), so a
  tick has its hits (`exists_tickHits`).
* Two quantities are conserved along a sequence of hits, for each tank (`Tank.Endured`): its hit
  points are those it had less the ones that hits on it took, and its life is the one that it had
  less the deadly hits on it.  As a tank has one life, one hit on it at most is deadly.
* The owners of the deadly hits, in order, are the scorers (`Hits.scorers_eq`).
* No hit is the victim's own (`Hit.shooter_ne`).
-/

namespace TankArena

open Table (Keyed)

variable {K : Type}

/-! ## 1. Harm -/

namespace Tank

theorem isLive_kill (now : Time) (t : Tank K) : (t.kill now).isLive = false := rfl

theorem isFrail_iff {t : Tank K} : t.isFrail = true ↔ t.hitPoints.toNat ≤ 1 := by
  unfold isFrail
  rw [decide_eq_true_iff, UInt8.le_iff_toNat_le]
  rfl

theorem hitPoints_damage (now : Time) (t : Tank K) :
    (t.damage now).hitPoints.toNat = t.hitPoints.toNat - 1 := by
  unfold damage
  by_cases hfrail : t.isFrail = true
  · rw [if_pos hfrail]
    exact (Nat.sub_eq_zero_of_le (isFrail_iff.mp hfrail)).symm
  · have hmore : 1 < t.hitPoints.toNat := Nat.lt_of_not_le (isFrail_iff.not.mp hfrail)
    rw [if_neg hfrail]
    exact UInt8.toNat_sub_of_le _ _ (UInt8.le_iff_toNat_le.mpr (Nat.le_of_lt hmore))

theorem isLive_damage (now : Time) (t : Tank K) :
    (t.damage now).isLive = (t.isLive && !t.isFrail) := by
  unfold damage
  by_cases hfrail : t.isFrail = true
  · rw [if_pos hfrail, hfrail, isLive_kill, Bool.not_true, Bool.and_false]
  · rw [if_neg hfrail, Bool.eq_false_iff.mpr hfrail, Bool.not_false, Bool.and_true]
    rfl

theorem disconnected_damage (now : Time) (t : Tank K) :
    (t.damage now).disconnected = t.disconnected := by
  unfold damage
  split <;> rfl

theorem Sound.hitPoints_pos [Scalar K] {t : Tank K} (h : t.Sound) (hlive : t.isLive = true) :
    0 < t.hitPoints.toNat := by
  refine Nat.pos_of_ne_zero fun hzero => ?_
  have hdied : t.died = true := h.died_iff.mpr (UInt8.toNat_inj.mp hzero)
  unfold isLive at hlive
  rw [hdied, Bool.not_true, Bool.false_and] at hlive
  exact Bool.false_ne_true hlive

end Tank

/-! ## 2. Single hits -/

/-- What hits a tank, and the tank as it is at that moment. -/
inductive Hit (K : Type) where
  | shot (p : Projectile K) (victim : Tank K)
  | ray (b : Beam K) (victim : Tank K)

namespace Hit

/-- The tank that is hit. -/
def victim : Hit K → Tank K
  | shot _ t => t
  | ray _ t => t

/-- The owner of what hits. -/
def shooter : Hit K → UInt32
  | shot p _ => p.owner
  | ray b _ => b.owner

/-- Whether the victim dies. -/
def isDeadly : Hit K → Bool
  | shot _ t => t.isFrail
  | ray _ _ => true

/-- The hit points that the victim loses. -/
def cost : Hit K → Nat
  | shot _ _ => 1
  | ray _ t => t.hitPoints.toNat

/-- A tank after the hit. -/
def inflict (now : Time) : Hit K → Tank K → Tank K
  | shot _ _ => Tank.damage now
  | ray _ _ => Tank.kill now

/-- Whether the hit is one: what hits is there, and reaches a live tank of another player. -/
def lands [Scalar K] : Hit K → Bool
  | shot p t => !p.died && p.hits t
  | ray b t => b.hits t

theorem inflict_id (now : Time) (h : Hit K) (t : Tank K) : (h.inflict now t).id = t.id := by
  cases h with
  | shot p v =>
    have hfade := Tank.fade_damage now t
    exact hfade.id_eq
  | ray b v => rfl

/-! ## 3. What several hits take -/

/-- The hit points that a tank loses by some hits. -/
def lost (id : UInt32) (hits : List (Hit K)) : Nat :=
  ((hits.filter fun h => h.victim.id == id).map cost).sum

/-- How many of some hits kill a tank. -/
def deadlyOn (id : UInt32) (hits : List (Hit K)) : Nat :=
  hits.countP fun h => h.isDeadly && h.victim.id == id

/-- The owners of the deadly hits, in order. -/
def scorers (hits : List (Hit K)) : List UInt32 := (hits.filter isDeadly).map shooter

theorem lost_append (id : UInt32) (before after : List (Hit K)) :
    lost id (before ++ after) = lost id before + lost id after := by
  simp only [lost, List.filter_append, List.map_append, List.sum_append]

theorem deadlyOn_append (id : UInt32) (before after : List (Hit K)) :
    deadlyOn id (before ++ after) = deadlyOn id before + deadlyOn id after :=
  List.countP_append

theorem scorers_append (before after : List (Hit K)) :
    scorers (before ++ after) = scorers before ++ scorers after := by
  simp only [scorers, List.filter_append, List.map_append]

theorem lost_singleton (id : UInt32) (h : Hit K) :
    lost id [h] = if h.victim.id = id then h.cost else 0 := by
  unfold lost
  by_cases hid : h.victim.id = id
  · simp [hid]
  · simp [hid]

theorem deadlyOn_singleton (id : UInt32) (h : Hit K) :
    deadlyOn id [h] = if h.victim.id = id then h.isDeadly.toNat else 0 := by
  unfold deadlyOn
  by_cases hid : h.victim.id = id
  · cases hd : h.isDeadly <;> simp [hid, hd]
  · simp [hid]

/-- The deadly hits, counted by their victims. -/
theorem deadlyOn_eq_count (id : UInt32) (hits : List (Hit K)) :
    deadlyOn id hits = ((hits.filter isDeadly).map fun h => h.victim.id).count id := by
  unfold deadlyOn
  rw [List.count_eq_countP, List.countP_map, List.countP_filter]
  refine List.countP_congr fun h _ => ?_
  simp only [Function.comp_apply, Bool.and_eq_true]
  exact and_comm

theorem length_scorers (hits : List (Hit K)) :
    (scorers hits).length = ((hits.filter isDeadly).map fun h => h.victim.id).length := by
  unfold scorers
  rw [List.length_map, List.length_map]

variable [Scalar K] {h : Hit K}

theorem isLive_of_lands (hl : h.lands = true) : h.victim.isLive = true := by
  cases h with
  | shot p t =>
    rw [lands, Bool.and_eq_true] at hl
    exact (Projectile.hits_iff.mp hl.2).1
  | ray b t => exact (Beam.hits_iff.mp hl).1

/-- **Nobody hits themselves.** -/
theorem shooter_ne (hl : h.lands = true) : h.shooter ≠ h.victim.id := by
  cases h with
  | shot p t =>
    rw [lands, Bool.and_eq_true] at hl
    exact (Projectile.hits_iff.mp hl.2).2.1.symm
  | ray b t => exact (Beam.hits_iff.mp hl).2.1.symm

end Hit

/-! ## 4. What a tank endures -/

/-- A tank before and after some hits.  Hit points and life are each conserved: what is left and
what the hits took make up what was there. -/
structure Tank.Endured (hits : List (Hit K)) (t u : Tank K) : Prop where
  id_eq : u.id = t.id
  disconnected_eq : u.disconnected = t.disconnected
  hitPoints : u.hitPoints.toNat + Hit.lost t.id hits = t.hitPoints.toNat
  life : Hit.deadlyOn t.id hits + u.isLive.toNat = t.isLive.toNat

namespace Tank

variable {t u v : Tank K}

theorem Endured.trans {before after : List (Hit K)} (h : t.Endured before u)
    (h' : u.Endured after v) : t.Endured (before ++ after) v where
  id_eq := h'.id_eq.trans h.id_eq
  disconnected_eq := h'.disconnected_eq.trans h.disconnected_eq
  hitPoints := by
    have hbefore := h.hitPoints
    have hafter := h'.hitPoints
    rw [h.id_eq] at hafter
    rw [Hit.lost_append]
    omega
  life := by
    have hbefore := h.life
    have hafter := h'.life
    rw [h.id_eq] at hafter
    rw [Hit.deadlyOn_append]
    omega

/-- The deadly hits on a tank that is live before: one if it is dead after them, and
none otherwise. -/
theorem Endured.deadlyOn_eq {hits : List (Hit K)} (h : t.Endured hits u) :
    Hit.deadlyOn t.id hits = (t.isLive && u.died).toNat := by
  have hlife := h.life
  have hgone := h.disconnected_eq
  unfold isLive at hlife ⊢
  rw [hgone] at hlife
  revert hlife
  cases t.died <;> cases t.disconnected <;> cases u.died <;> simp

/-- A tank that keeps its life and its hit points has endured nothing. -/
theorem endured_nil (hid : u.id = t.id) (hgone : u.disconnected = t.disconnected)
    (hpoints : u.hitPoints = t.hitPoints) (hdied : u.died = t.died) : t.Endured [] u where
  id_eq := hid
  disconnected_eq := hgone
  hitPoints := congrArg UInt8.toNat hpoints
  life := by
    unfold isLive
    rw [hdied, hgone]
    exact Nat.zero_add _

/-- A hit on another tank takes nothing. -/
theorem endured_other {h : Hit K} (hother : h.victim.id ≠ t.id) : t.Endured [h] t where
  id_eq := rfl
  disconnected_eq := rfl
  hitPoints := by rw [Hit.lost_singleton, if_neg hother, Nat.add_zero]
  life := by rw [Hit.deadlyOn_singleton, if_neg hother, Nat.zero_add]

variable [Scalar K]

/-- **A hit on the tank itself** takes what it costs, and the life if it is deadly. -/
theorem Sound.endured_self {h : Hit K} (hs : h.victim.Sound) (hl : h.lands = true) (now : Time) :
    h.victim.Endured [h] (h.inflict now h.victim) := by
  have hlive := Hit.isLive_of_lands hl
  have hpos := hs.hitPoints_pos hlive
  refine ⟨Hit.inflict_id now h h.victim, ?_, ?_, ?_⟩
  · cases h with
    | shot p t => exact disconnected_damage now t
    | ray b t => rfl
  · rw [Hit.lost_singleton, if_pos rfl]
    cases h with
    | shot p t =>
      have hdamage : (Hit.inflict now (.shot p t) t).hitPoints.toNat = t.hitPoints.toNat - 1 :=
        hitPoints_damage now t
      exact hdamage ▸ Nat.sub_add_cancel hpos
    | ray b t => exact Nat.zero_add _
  · rw [Hit.deadlyOn_singleton, if_pos rfl, hlive]
    cases h with
    | shot p t =>
      have hdamage : (Hit.inflict now (.shot p t) t).isLive = (t.isLive && !t.isFrail) :=
        isLive_damage now t
      have htlive : t.isLive = true := hlive
      rw [Hit.victim, hdamage, htlive, Hit.isDeadly]
      cases t.isFrail <;> rfl
    | ray b t => rfl

end Tank

namespace Toll

/-! ## 5. Sequences of hits -/

/-- A toll after a hit. -/
def suffer (now : Time) (toll : Toll K) (h : Hit K) : Toll K where
  tanks := Table.modify h.victim.id (h.inflict now) toll.tanks
  scorers := if h.isDeadly then toll.scorers ++ [h.shooter] else toll.scorers

theorem suffer_keyed {toll : Toll K} (hk : Keyed toll.tanks) (now : Time) (h : Hit K) :
    Keyed (toll.suffer now h).tanks :=
  hk.modify _ fun t => Hit.inflict_id now h t

theorem suffer_fade (now : Time) (toll : Toll K) (x : Hit K) :
    TanksFade toll.tanks (toll.suffer now x).tanks := by
  refine Table.forall₂_map_self (fun t => ?_) toll.tanks
  split
  · cases x with
    | shot p v => exact Tank.fade_damage now t
    | ray b v => exact Tank.fade_kill now t
  · exact Tank.Fade.refl t

variable [Scalar K]

/-- Hits, one after the other, that lead from one toll to another. -/
inductive Hits (now : Time) : Toll K → List (Hit K) → Toll K → Prop where
  | done (toll : Toll K) : Hits now toll [] toll
  | hit {toll toll' : Toll K} {h : Hit K} {hits : List (Hit K)} :
      h.victim ∈ toll.tanks → h.lands = true → Hits now (toll.suffer now h) hits toll' →
      Hits now toll (h :: hits) toll'

namespace Hits

variable {now : Time} {toll toll' toll'' : Toll K} {hits hits' : List (Hit K)}

theorem single {h : Hit K} (hmem : h.victim ∈ toll.tanks) (hl : h.lands = true) :
    Hits now toll [h] (toll.suffer now h) :=
  Hits.hit hmem hl (Hits.done _)

theorem append (h : Hits now toll hits toll') (h' : Hits now toll' hits' toll'') :
    Hits now toll (hits ++ hits') toll'' := by
  induction h with
  | done => exact h'
  | hit hmem hl _ ih => exact Hits.hit hmem hl (ih h')

/-- Every hit of a sequence is one. -/
theorem lands (h : Hits now toll hits toll') : ∀ x ∈ hits, x.lands = true := by
  induction h with
  | done => exact fun x hx => absurd hx List.not_mem_nil
  | hit _ hl _ ih =>
    intro x hx
    rcases List.mem_cons.mp hx with rfl | hx
    · exact hl
    · exact ih x hx

/-- The owners of the deadly hits are the scorers. -/
theorem scorers_eq (h : Hits now toll hits toll') :
    toll'.scorers = toll.scorers ++ Hit.scorers hits := by
  induction h with
  | done => exact (List.append_nil _).symm
  | @hit toll toll' x hits _ _ _ ih =>
    rw [ih]
    unfold suffer Hit.scorers
    dsimp only
    rw [List.filter_cons]
    cases x.isDeadly with
    | true => exact List.append_assoc _ _ _
    | false => rfl

/-- A victim is what has become of a tank that was there at the beginning. -/
theorem exists_victim (h : Hits now toll hits toll') :
    ∀ x ∈ hits, ∃ t ∈ toll.tanks, t.Fade x.victim := by
  induction h with
  | done => exact fun x hx => absurd hx List.not_mem_nil
  | @hit toll toll' first hits hmem _ _ ih =>
    intro x hx
    rcases List.mem_cons.mp hx with rfl | hx
    · exact ⟨x.victim, hmem, Tank.Fade.refl _⟩
    · obtain ⟨u, hu, hfade⟩ := ih x hx
      obtain ⟨t, ht, htu⟩ := Table.exists_before_of_forall₂ (suffer_fade now toll first) hu
      exact ⟨t, ht, htu.trans hfade⟩

/-! ## 6. Conservation -/

theorem suffer_sound (hs : ∀ t ∈ toll.tanks, t.Sound) (now : Time) (x : Hit K) :
    ∀ t ∈ (toll.suffer now x).tanks, t.Sound := by
  intro u hu
  obtain ⟨t, ht, rfl⟩ := List.mem_map.mp hu
  split
  · cases x with
    | shot p v => exact (hs t ht).damage now
    | ray b v => exact (hs t ht).kill now
  · exact hs t ht

/-- One hit takes from its victim and from no other tank. -/
theorem suffer_endured (hk : Keyed toll.tanks) (hs : ∀ t ∈ toll.tanks, t.Sound) {x : Hit K}
    (hmem : x.victim ∈ toll.tanks) (hl : x.lands = true) (now : Time) :
    List.Forall₂ (Tank.Endured [x]) toll.tanks (toll.suffer now x).tanks := by
  unfold suffer Table.modify
  dsimp only
  rw [List.forall₂_map_right_iff, List.forall₂_same]
  intro t ht
  rw [Tank.ident_eq]
  by_cases hid : t.id = x.victim.id
  · have hself : t = x.victim := hk.eq_of_ident_eq ht hmem hid
    rw [if_pos hid, hself]
    exact (hs _ hmem).endured_self hl now
  · rw [if_neg hid]
    exact Tank.endured_other (Ne.symm hid)

/-- **Hit points and lives are conserved along every sequence of hits.** -/
theorem endured (h : Hits now toll hits toll') (hk : Keyed toll.tanks)
    (hs : ∀ t ∈ toll.tanks, t.Sound) :
    List.Forall₂ (Tank.Endured hits) toll.tanks toll'.tanks := by
  induction h with
  | done toll => exact List.forall₂_same.mpr fun t _ => Tank.endured_nil rfl rfl rfl rfl
  | @hit toll toll' x hits hmem hl _ ih =>
    exact Table.forall₂_trans (fun _ _ _ hfirst hrest => hfirst.trans hrest)
      (suffer_endured hk hs hmem hl now) (ih (suffer_keyed hk now x) (suffer_sound hs now x))

end Hits

/-! ## 7. Projectiles and beams act by hits -/

/-- The hit of a projectile, if it makes one. -/
def hit? (toll : Toll K) (p : Projectile K) : Option (Hit K) :=
  if p.died then none else (toll.tanks.find? p.hits).map (Hit.shot p)

/-- The hits of some projectiles, one after the other. -/
def strikes (now : Time) : Toll K → List (Projectile K) → List (Hit K)
  | _, [] => []
  | toll, p :: ps => (toll.hit? p).toList ++ strikes now (toll.strike now p).2 ps

theorem hit?_eq_some {toll : Toll K} {p : Projectile K} {x : Hit K} (h : toll.hit? p = some x) :
    p.died = false ∧ ∃ t ∈ toll.tanks, p.hits t = true ∧ x = .shot p t := by
  unfold hit? at h
  cases hdied : p.died with
  | true =>
    rw [if_pos hdied] at h
    cases h
  | false =>
    rw [if_neg (Bool.eq_false_iff.mp hdied)] at h
    obtain ⟨t, hfind, rfl⟩ := Option.map_eq_some_iff.mp h
    exact ⟨rfl, t, List.mem_of_find?_eq_some hfind, List.find?_some hfind, rfl⟩

/-- **One projectile** falls if it makes a hit, and the hit is all that it does. -/
theorem strike_eq_hit? (now : Time) (toll : Toll K) (p : Projectile K) :
    toll.strike now p = ({ p with died := p.died || (toll.hit? p).isSome },
      (toll.hit? p).toList.foldl (suffer now) toll) := by
  unfold strike hit?
  cases hdied : p.died with
  | true => simp [← hdied]
  | false =>
    cases hfind : toll.tanks.find? p.hits with
    | none => simp [← hdied]
    | some t => rfl

theorem strike_hits (now : Time) (toll : Toll K) (p : Projectile K) :
    Hits now toll (toll.hit? p).toList (toll.strike now p).2 := by
  rw [strike_eq_hit?]
  cases hhit : toll.hit? p with
  | none => exact Hits.done toll
  | some x =>
    obtain ⟨hdied, t, ht, hhits, rfl⟩ := hit?_eq_some hhit
    have hlands : (Hit.shot p t).lands = true := by
      rw [Hit.lands, hdied, hhits, Bool.not_false, Bool.and_self]
    exact Hits.single ht hlands

/-- **All projectiles**: their hits are all that they do. -/
theorem visit_strike_eq (now : Time) (toll : Toll K) (ps : List (Projectile K)) :
    (Table.visit (strike now) toll ps).2 = (strikes now toll ps).foldl (suffer now) toll := by
  induction ps generalizing toll with
  | nil => rfl
  | cons p ps ih =>
    rw [Table.visit_cons, strikes, List.foldl_append, ih, strike_eq_hit?]

theorem visit_strike_hits (now : Time) (toll : Toll K) (ps : List (Projectile K)) :
    Hits now toll (strikes now toll ps) (Table.visit (strike now) toll ps).2 := by
  induction ps generalizing toll with
  | nil => exact Hits.done toll
  | cons p ps ih => exact (strike_hits now toll p).append (ih (toll.strike now p).2)

theorem exists_of_mem_strikes {now : Time} {toll : Toll K} {ps : List (Projectile K)} {x : Hit K}
    (hx : x ∈ strikes now toll ps) : ∃ p ∈ ps, ∃ t, x = .shot p t := by
  induction ps generalizing toll with
  | nil => cases hx
  | cons p ps ih =>
    rw [strikes, List.mem_append, Option.mem_toList] at hx
    rcases hx with hfirst | hrest
    · obtain ⟨_, t, _, _, hshot⟩ := hit?_eq_some hfirst
      exact ⟨p, List.mem_cons_self, t, hshot⟩
    · obtain ⟨q, hq, hshot⟩ := ih hrest
      exact ⟨q, List.mem_cons_of_mem _ hq, hshot⟩

/-- A beam at some of the tanks, after those before them.  By induction on the tanks that are still
to be looked at; the ones before keep their ids, so the table stays keyed. -/
theorem burn_rest_hits (now : Time) (b : Beam K) (before after : List (Tank K))
    (scorers : List UInt32) (hk : Keyed (before ++ after)) :
    ∃ hits, Hits now ⟨before ++ after, scorers⟩ hits
        ⟨before ++ after.map (fun t => if b.hits t then t.kill now else t),
          scorers ++ List.replicate (after.countP b.hits) b.owner⟩ ∧
      ∀ h ∈ hits, ∃ t, h = .ray b t := by
  induction after generalizing before scorers with
  | nil =>
    refine ⟨[], ?_, fun h hh => absurd hh List.not_mem_nil⟩
    rw [List.map_nil, List.countP_nil, List.replicate_zero, List.append_nil, List.append_nil]
    exact Hits.done _
  | cons t after ih =>
    by_cases hhits : b.hits t = true
    · have hchange := Table.modify_between hk (Tank.kill now)
      have hids : (before ++ [t.kill now] ++ after).map Identified.ident
          = (before ++ t :: after).map Identified.ident := by
        simp [Tank.kill]
      obtain ⟨hits, hrest, hrays⟩ := ih (before ++ [t.kill now]) (scorers ++ [b.owner])
        (hk.of_ids_eq hids)
      have hfirst : suffer now ⟨before ++ t :: after, scorers⟩ (.ray b t)
          = ⟨before ++ [t.kill now] ++ after, scorers ++ [b.owner]⟩ := by
        rw [List.append_assoc]
        exact congrArg (fun tanks => (⟨tanks, scorers ++ [b.owner]⟩ : Toll K)) hchange
      rw [← hfirst] at hrest
      rw [List.map_cons, if_pos hhits, List.countP_cons_of_pos hhits, List.replicate_succ]
      rw [List.append_assoc, List.append_assoc] at hrest
      refine ⟨.ray b t :: hits, Hits.hit ?_ hhits hrest, fun h hh => ?_⟩
      · exact List.mem_append_right _ List.mem_cons_self
      · rcases List.mem_cons.mp hh with rfl | hh
        · exact ⟨t, rfl⟩
        · exact hrays h hh
    · rw [← List.singleton_append (x := t), ← List.append_assoc] at hk ⊢
      obtain ⟨hits, hrest, hrays⟩ := ih (before ++ [t]) scorers hk
      rw [List.map_append, List.map_singleton, if_neg hhits, ← List.append_assoc,
        List.countP_append, List.countP_singleton, if_neg hhits, Nat.zero_add]
      exact ⟨hits, hrest, hrays⟩

/-- **One beam** makes one hit for every tank that it hits. -/
theorem burn_hits (now : Time) {toll : Toll K} (hk : Keyed toll.tanks) (b : Beam K) :
    ∃ hits, Hits now toll hits (toll.burn now b) ∧ ∀ h ∈ hits, ∃ t, h = .ray b t :=
  burn_rest_hits now b [] toll.tanks toll.scorers hk

/-- **All beams.** -/
theorem foldl_burn_hits (now : Time) (bs : List (Beam K)) (toll : Toll K)
    (hk : Keyed toll.tanks) :
    ∃ hits, Hits now toll hits (bs.foldl (burn now) toll) ∧
      ∀ h ∈ hits, ∃ b ∈ bs, ∃ t, h = .ray b t := by
  induction bs generalizing toll with
  | nil => exact ⟨[], Hits.done _, fun h hh => absurd hh List.not_mem_nil⟩
  | cons b bs ih =>
    obtain ⟨first, hfirst, hrays⟩ := burn_hits now hk b
    have hkeyed : Keyed (toll.burn now b).tanks :=
      hk.of_ids_eq (Table.ids_eq_of_forall₂ (fun _ _ hf => Tank.Fade.id_eq hf) (burn_fade now toll b))
    obtain ⟨later, hlater, hmore⟩ := ih (toll.burn now b) hkeyed
    refine ⟨first ++ later, hfirst.append hlater, fun h hh => ?_⟩
    rcases List.mem_append.mp hh with hh | hh
    · exact ⟨b, List.mem_cons_self, hrays h hh⟩
    · obtain ⟨c, hc, hray⟩ := hmore h hh
      exact ⟨c, List.mem_cons_of_mem _ hc, hray⟩

end Toll

namespace World

variable [Scalar K]

/-! ## 8. The hits of a tick -/

/-- The hits of a tick: those of projectiles, and after them those of beams. -/
structure TickHits (now : Time) (w : World K) (shots rays : List (Hit K)) : Prop where
  volley : Toll.Hits now ⟨(w.walled now).tanks, []⟩ shots
    ⟨(w.struck now).1.tanks, (w.struck now).2⟩
  exists_projectile : ∀ h ∈ shots, ∃ p ∈ (w.walled now).projectiles, ∃ t, h = .shot p t
  blaze : Toll.Hits now ⟨(w.gathered now).tanks, (w.struck now).2⟩ rays (w.toll now)
  exists_beam : ∀ h ∈ rays, ∃ b ∈ (w.moved now).beams, ∃ t, h = .ray b t

/-- Changes of a tick keep tanks sound. -/
theorem TanksChange.sound {delay : Nat} {now : Time} {ts us : List (Tank K)}
    (h : TanksChange delay now ts us) (hs : ∀ t ∈ ts, t.Sound) : ∀ u ∈ us, u.Sound :=
  Table.forall_of_forall₂ (fun _ _ hchanges ht => Tank.Sound.changes ht hchanges) h hs

variable {w : World K}

/-- The tanks of a tick after the walls have come through changes. -/
theorem changes_walled (now : Time) (w : World K) :
    TanksChange w.respawnDelay now w.tanks (w.walled now).tanks :=
  (moved_tanks now w).trans (walled_tanks _ now w)

/-- The tanks of a tick after the power-ups have come through changes. -/
theorem changes_gathered (now : Time) (hk : Keyed w.tanks) :
    TanksChange w.respawnDelay now w.tanks (w.gathered now).tanks :=
  (changes_walled now w).trans ((struck_tanks _ now hk).trans (gathered_tanks _ now w))

/-- **A tick has its hits.** -/
theorem exists_tickHits (hk : Keyed w.tanks) (now : Time) :
    ∃ shots rays, w.TickHits now shots rays := by
  have hvolley := Toll.visit_strike_hits now ⟨(w.walled now).tanks, []⟩ (w.walled now).projectiles
  obtain ⟨rays, hblaze, hrays⟩ := Toll.foldl_burn_hits now (w.gathered now).beams
    ⟨(w.gathered now).tanks, (w.struck now).2⟩ ((changes_gathered now hk).keyed hk)
  exact ⟨_, rays, hvolley, fun _ hx => Toll.exists_of_mem_strikes hx, hblaze, hrays⟩

namespace TickHits

variable {now : Time} {shots rays : List (Hit K)}

theorem lands (h : w.TickHits now shots rays) : ∀ x ∈ shots ++ rays, x.lands = true := by
  intro x hx
  rcases List.mem_append.mp hx with hx | hx
  · exact h.volley.lands x hx
  · exact h.blaze.lands x hx

/-- The scorers of a tick are the owners of its deadly hits. -/
theorem scorers_eq (h : w.TickHits now shots rays) :
    (w.toll now).scorers = Hit.scorers (shots ++ rays) := by
  have hstruck : (w.struck now).2 = Hit.scorers shots := h.volley.scorers_eq
  rw [h.blaze.scorers_eq, hstruck, Hit.scorers_append]

/-- **What the tanks endure in a tick** are its hits.  Walls, power-ups and points, which come
before, between and after the hits, take neither hit points nor lives. -/
theorem endured (h : w.TickHits now shots rays) (hw : w.Sound) :
    List.Forall₂ (Tank.Endured (shots ++ rays)) (w.moved now).tanks (w.tick now).tanks := by
  have hwalled := changes_walled now w
  have hgathered := changes_gathered now hw.keyed
  have hmove : List.Forall₂ (Tank.Endured []) (w.moved now).tanks (w.walled now).tanks := by
    refine List.forall₂_map_right_iff.mpr (List.forall₂_same.mpr fun t _ => ?_)
    unfold Tank.rebound
    split <;> exact Tank.endured_nil rfl rfl rfl rfl
  have hvolley := h.volley.endured (hwalled.keyed hw.keyed) (hwalled.sound hw.tanks)
  have hcollect : List.Forall₂ (Tank.Endured []) (w.struck now).1.tanks (w.gathered now).tanks := by
    refine Table.visit_forall₂ (fun powerUps t => ?_) _ _
    obtain ⟨ammo, hammo⟩ := t.collect_ammo now powerUps
    rw [hammo]
    exact Tank.endured_nil rfl rfl rfl rfl
  have hblaze := h.blaze.endured (hgathered.keyed hw.keyed) (hgathered.sound hw.tanks)
  have haward : List.Forall₂ (Tank.Endured []) (w.toll now).tanks (w.tick now).tanks := by
    have htick : (w.tick now).tanks = (w.toll now).award := rfl
    rw [htick, Toll.award_eq]
    exact List.forall₂_map_right_iff.mpr
      (List.forall₂_same.mpr fun t _ => Tank.endured_nil rfl rfl rfl rfl)
  have htrans : ∀ (before after : List (Hit K)) (t u v : Tank K), t.Endured before u →
      u.Endured after v → t.Endured (before ++ after) v := fun _ _ _ _ _ ht hu => ht.trans hu
  have hall := Table.forall₂_trans (htrans _ _) hmove (Table.forall₂_trans (htrans _ _) hvolley
    (Table.forall₂_trans (htrans _ _) hcollect (Table.forall₂_trans (htrans _ _) hblaze haward)))
  rw [List.nil_append, List.nil_append, List.append_nil] at hall
  exact hall

/-- A victim of a tick is one of its tanks. -/
theorem has_victim (h : w.TickHits now shots rays) (hk : Keyed w.tanks) :
    ∀ x ∈ shots ++ rays, Table.has x.victim.id w.tanks = true := by
  have hids : ∀ {ts : List (Tank K)} {x : Hit K}, TanksChange w.respawnDelay now w.tanks ts →
      (∃ t ∈ ts, t.Fade x.victim) → Table.has x.victim.id w.tanks = true := by
    rintro ts x hchange ⟨t, ht, hfade⟩
    rw [← Table.has_of_forall₂ (fun _ _ hc => Tank.Changes.id_eq hc) hchange,
      Table.has_iff_mem_ids, hfade.id_eq]
    exact List.mem_map_of_mem ht
  intro x hx
  rcases List.mem_append.mp hx with hx | hx
  · exact hids (changes_walled now w) (h.volley.exists_victim x hx)
  · exact hids (changes_gathered now hk) (h.blaze.exists_victim x hx)

end TickHits

end World

end TankArena
