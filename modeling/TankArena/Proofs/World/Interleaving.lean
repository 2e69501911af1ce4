import Mathlib.Logic.Equiv.Basic
import Mathlib.Algebra.Group.End
import TankArena.Proofs.World.Ids

/-!
# Commands in any order

Players send their commands on their own, so the commands of different players reach the world in
any order.  Those of one player reach it in the order in which they were sent.  Between two ticks
this leaves no trace but the ids of the new shots.

* A tank is answerable to its own commands only (`Tank.answers`), and what they make of it and what
  it fires does not depend on anything else (`serve_eq`, `filter_shotsOf`).
* So two orders lead to the same shots in another order (`shotsOf_perm`), and shots take their ids
  in the order in which they are fired.
* Things that take ids in another order are the same things up to a renaming (`exists_renaming`).
-/

namespace TankArena

open Table (Keyed)

/-! ## 1. Orders and renamings -/

/-- Lists that agree on the things of each key differ in their order at the most. -/
theorem perm_of_filter_eq {α : Type} (key : α → UInt32) {xs ys : List α}
    (h : ∀ id, xs.filter (fun x => key x == id) = ys.filter fun x => key x == id) :
    xs.Perm ys := by
  classical
  rw [List.perm_iff_count]
  intro x
  have hcount : ∀ zs : List α, (zs.filter fun y => key y == key x).count x = zs.count x :=
    fun zs => List.count_filter (beq_self_eq_true _)
  rw [← hcount xs, h (key x), hcount ys]

/-- **Things that take ids in another order** are the same things up to a renaming of these ids.  By
induction on the other order: an exchange of two neighbours exchanges their ids. -/
theorem exists_renaming {α : Type} {xs ys : List α} (h : xs.Perm ys) {ids : List UInt32}
    (hids : ids.Nodup) (hlength : ids.length = xs.length) :
    ∃ rename : Equiv.Perm UInt32, (∀ id, id ∉ ids → rename id = id) ∧
      ((ids.zip xs).map (Prod.map rename id)).Perm (ids.zip ys) := by
  induction h generalizing ids with
  | nil => exact ⟨1, fun _ _ => rfl, by simp⟩
  | @cons x xs ys _ ih =>
    obtain ⟨i, is, rfl⟩ := List.exists_cons_of_length_eq_add_one hlength
    obtain ⟨hi, his⟩ := List.nodup_cons.mp hids
    obtain ⟨rename, hfix, hperm⟩ := ih his (by simpa using hlength)
    refine ⟨rename, fun id hid => hfix id fun h => hid (List.mem_cons_of_mem i h), ?_⟩
    simpa [hfix i hi] using hperm
  | swap x y xs =>
    obtain ⟨i, is, rfl⟩ := List.exists_cons_of_length_eq_add_one hlength
    obtain ⟨j, js, rfl⟩ := List.exists_cons_of_length_eq_add_one (by simpa using hlength)
    obtain ⟨hi, hjs⟩ := List.nodup_cons.mp hids
    obtain ⟨hj, _⟩ := List.nodup_cons.mp hjs
    have hfix : ∀ id, id ∉ i :: j :: js → Equiv.swap i j id = id := by
      intro id hid
      simp only [List.mem_cons, not_or] at hid
      exact Equiv.swap_apply_of_ne_of_ne hid.1 hid.2.1
    refine ⟨Equiv.swap i j, hfix, ?_⟩
    have hrest : (js.zip xs).map (Prod.map (Equiv.swap i j) id) = js.zip xs := by
      refine (List.map_congr_left fun pair hpair => ?_).trans (List.map_id _)
      have hmem : pair.1 ∈ js := (List.of_mem_zip hpair).1
      have hsame : Equiv.swap i j pair.1 = pair.1 :=
        Equiv.swap_apply_of_ne_of_ne
          (fun h => hi (h ▸ List.mem_cons_of_mem j hmem)) fun h => hj (h ▸ hmem)
      exact Prod.ext hsame rfl
    simp only [List.zip_cons_cons, List.map_cons, Prod.map, Equiv.swap_apply_left,
      Equiv.swap_apply_right, id]
    rw [hrest]
    exact List.Perm.swap _ _ _
  | @trans xs ys zs hxy _ ihxy ihyz =>
    obtain ⟨first, hfirst, hxyPerm⟩ := ihxy hids hlength
    obtain ⟨second, hsecond, hyzPerm⟩ := ihyz hids (hlength.trans hxy.length_eq)
    refine ⟨second * first, fun id hid => ?_, ?_⟩
    · rw [Equiv.Perm.mul_apply, hfirst id hid, hsecond id hid]
    · have hboth := (hxyPerm.map (Prod.map second id)).trans hyzPerm
      rwa [List.map_map] at hboth

variable {K : Type} [Scalar K]

/-! ## 2. Requests -/

/-- A command to a tank at an instant. -/
structure Request (K : Type) where
  id : UInt32
  command : Command K
  now : Time

/-- The requests to one tank. -/
def Request.own (id : UInt32) (xs : List (Request K)) : List (Request K) :=
  xs.filter fun x => x.id == id

omit [Scalar K] in
theorem Request.own_cons_of_eq {id : UInt32} {x : Request K} (h : x.id = id)
    (xs : List (Request K)) : Request.own id (x :: xs) = x :: Request.own id xs :=
  List.filter_cons_of_pos (beq_iff_eq.mpr h)

omit [Scalar K] in
theorem Request.own_cons_of_ne {id : UInt32} {x : Request K} (h : x.id ≠ id)
    (xs : List (Request K)) : Request.own id (x :: xs) = Request.own id xs :=
  List.filter_cons_of_neg fun hid => h (beq_iff_eq.mp hid)

/-- Requests to several tanks in one order, which keeps the order of those to each tank. -/
def Interleaves (own : UInt32 → List (Request K)) (xs : List (Request K)) : Prop :=
  ∀ id, Request.own id xs = own id

namespace Tank

/-- The tank after a request to it. -/
def answer (cooldown : Nat) (t : Tank K) (x : Request K) : Tank K :=
  (t.heed x.command).pull cooldown x.command.trigger x.now

/-- What the tank fires at a request to it. -/
def reply? (cooldown : Nat) (t : Tank K) (x : Request K) : Option (Shot K) :=
  (t.heed x.command).shot? cooldown x.command.trigger x.now

/-- What the tank fires at requests to it. -/
def replies (cooldown : Nat) : Tank K → List (Request K) → List (Shot K)
  | _, [] => []
  | t, x :: xs => (t.reply? cooldown x).toList ++ replies cooldown (t.answer cooldown x) xs

@[simp] theorem answer_id (cooldown : Nat) (t : Tank K) (x : Request K) :
    (t.answer cooldown x).id = t.id := by
  rw [answer, pull_id, heed_id]

end Tank

/-- The projectile under another id. -/
def Projectile.rename (rename : UInt32 → UInt32) (p : Projectile K) : Projectile K :=
  { p with id := rename p.id }

/-- The beam under another id. -/
def Beam.rename (rename : UInt32 → UInt32) (b : Beam K) : Beam K := { b with id := rename b.id }

namespace World

variable {w : World K}

/-- The world after requests. -/
def serve (w : World K) (xs : List (Request K)) : World K :=
  xs.foldl (fun w x => (w.command x.id x.command x.now).1) w

/-- What is fired at a request. -/
def reply? (w : World K) (x : Request K) : Option (Shot K) :=
  (w.tank? x.id).bind fun t => t.reply? w.fireCooldown x

/-- What is fired at requests. -/
def shotsOf (w : World K) : List (Request K) → List (Shot K)
  | [] => []
  | x :: xs => (w.reply? x).toList ++ shotsOf (w.command x.id x.command x.now).1 xs

/-- The world with more shots. -/
def releases (w : World K) (ss : List (Shot K)) : World K := ss.foldl (fun w s => w.release s) w

/-! ## 3. What requests do -/

omit [Scalar K] in
theorem releases_tanks (w : World K) (ts : List (Tank K)) (ss : List (Shot K)) :
    { w with tanks := ts }.releases ss = { w.releases ss with tanks := ts } := by
  induction ss generalizing w with
  | nil => rfl
  | cons s ss ih => exact ih (w.release s)

/-- **One request** changes its tank and releases what that fires. -/
theorem command_world (hk : Keyed w.tanks) (x : Request K) :
    (w.command x.id x.command x.now).1 =
      { w.releases (w.reply? x).toList with
        tanks := Table.modify x.id (fun t => t.answer w.fireCooldown x) w.tanks } := by
  have hkeyed := heeded_keyed hk x.id x.command
  have htanks : ((w.heeded x.id x.command).pulled x.id x.command.trigger x.now).tanks
      = Table.modify x.id (fun t => t.answer w.fireCooldown x) w.tanks :=
    Table.modify_modify (fun t => Tank.heed_id x.command t) w.tanks
  have hreply : (w.heeded x.id x.command).shot? x.id x.command.trigger x.now = w.reply? x := by
    unfold shot? reply?
    rw [tank?_heeded]
    cases w.tank? x.id with
    | none => rfl
    | some t =>
      rw [Option.map_some, if_pos rfl]
      rfl
  rw [command_eq hk, fire_eq hkeyed, ← htanks, ← hreply]
  cases hshot : (w.heeded x.id x.command).shot? x.id x.command.trigger x.now with
  | none =>
    dsimp only
    rw [pulled_of_shot?_eq_none hkeyed hshot]
    rfl
  | some s => rfl

theorem command_keyed (hk : Keyed w.tanks) (x : Request K) :
    Keyed (w.command x.id x.command x.now).1.tanks := by
  rw [command_world hk x]
  exact hk.modify x.id fun t => Tank.answer_id _ t x

theorem command_fireCooldown (w : World K) (x : Request K) :
    (w.command x.id x.command x.now).1.fireCooldown = w.fireCooldown :=
  (perform_fixed w (.command x.id x.command x.now)).1

/-- **Requests** change each tank by those to it and release what is fired.  By induction on the
requests: one request leaves other tanks as they are, and a release leaves all. -/
theorem serve_eq (hk : Keyed w.tanks) (xs : List (Request K)) :
    w.serve xs =
      { w.releases (w.shotsOf xs) with
        tanks := w.tanks.map fun t =>
          (Request.own t.id xs).foldl (Tank.answer w.fireCooldown) t } := by
  induction xs generalizing w with
  | nil =>
    have hsame : w.tanks.map (fun t => (Request.own t.id []).foldl (Tank.answer w.fireCooldown) t)
        = w.tanks := List.map_id' w.tanks
    rw [hsame]
    rfl
  | cons x xs ih =>
    have hone := command_world hk x
    have htanks : (w.command x.id x.command x.now).1.tanks.map
          (fun t => (Request.own t.id xs).foldl (Tank.answer w.fireCooldown) t)
        = w.tanks.map fun t =>
            (Request.own t.id (x :: xs)).foldl (Tank.answer w.fireCooldown) t := by
      rw [hone]
      unfold Table.modify
      dsimp only
      rw [List.map_map]
      refine List.map_congr_left fun t _ => ?_
      rw [Function.comp_apply, Tank.ident_eq]
      by_cases hid : t.id = x.id
      · rw [if_pos hid, Tank.answer_id, Request.own_cons_of_eq hid.symm, List.foldl_cons]
      · rw [if_neg hid, Request.own_cons_of_ne (Ne.symm hid)]
    have hreleases : ∀ (ss : List (Shot K)) (ts : List (Tank K)),
        { (w.command x.id x.command x.now).1.releases ss with tanks := ts }
          = { w.releases ((w.reply? x).toList ++ ss) with tanks := ts } := by
      intro ss ts
      rw [hone, releases_tanks]
      unfold releases
      rw [List.foldl_append]
    have hserve : w.serve (x :: xs) = (w.command x.id x.command x.now).1.serve xs := rfl
    rw [hserve, ih (command_keyed hk x), command_fireCooldown, htanks, hreleases]
    rfl

/-- **One tank** is changed by the requests to it. -/
theorem tank?_serve (hk : Keyed w.tanks) (id : UInt32) (xs : List (Request K)) :
    (w.serve xs).tank? id
      = (w.tank? id).map fun t => (Request.own id xs).foldl (Tank.answer w.fireCooldown) t := by
  have hid : ∀ (ys : List (Request K)) (t : Tank K),
      (ys.foldl (Tank.answer w.fireCooldown) t).id = t.id := by
    intro ys
    induction ys with
    | nil => exact fun t => rfl
    | cons y ys ih => exact fun t => (ih _).trans (Tank.answer_id _ t y)
  rw [serve_eq hk, tank?, Table.find?_map (fun t => hid _ t)]
  refine Option.map_congr fun t ht => ?_
  have htid : t.id = id := Table.ident_of_find? ht
  rw [htid]

/-- **What a tank fires** at requests it fires at those to it. -/
theorem filter_shotsOf (hk : Keyed w.tanks) (id : UInt32) (xs : List (Request K)) :
    (w.shotsOf xs).filter (fun s => s.owner == id)
      = (w.tank? id).elim [] fun t => t.replies w.fireCooldown (Request.own id xs) := by
  induction xs generalizing w with
  | nil =>
    cases w.tank? id <;> rfl
  | cons x xs ih =>
    have htank := tank?_command hk id x.id x.command x.now
    have howner : ∀ s ∈ w.reply? x, s.owner = x.id := by
      intro s hs
      obtain ⟨t, ht, hshot⟩ := Option.bind_eq_some_iff.mp hs
      rw [Tank.shot?_owner hshot, Tank.heed_id]
      exact Table.ident_of_find? ht
    rw [shotsOf, List.filter_append, ih (command_keyed hk x), command_fireCooldown, htank]
    by_cases hid : x.id = id
    · subst hid
      have hmine : (w.reply? x).toList.filter (fun s => s.owner == x.id) = (w.reply? x).toList :=
        List.filter_eq_self.mpr fun s hs => beq_iff_eq.mpr (howner s (Option.mem_toList.mp hs))
      rw [hmine, Request.own_cons_of_eq rfl, reply?]
      cases w.tank? x.id with
      | none => rfl
      | some t =>
        rw [Option.map_some, if_pos rfl]
        rfl
    · have hnone : (w.reply? x).toList.filter (fun s => s.owner == id) = [] :=
        List.filter_eq_nil_iff.mpr fun s hs hs' =>
          hid ((howner s (Option.mem_toList.mp hs)).symm.trans (beq_iff_eq.mp hs'))
      rw [hnone, Request.own_cons_of_ne hid]
      cases w.tank? id with
      | none => rfl
      | some t =>
        rw [Option.map_some, if_neg (Ne.symm hid)]
        rfl

/-- A request brings one shot at the most. -/
theorem length_shotsOf_le (w : World K) (xs : List (Request K)) :
    (w.shotsOf xs).length ≤ xs.length := by
  induction xs generalizing w with
  | nil => exact Nat.le_refl _
  | cons x xs ih =>
    have hone : (w.reply? x).toList.length ≤ 1 := Option.length_toList_le
    rw [shotsOf, List.length_append, List.length_cons]
    have hrest := ih (w.command x.id x.command x.now).1
    omega

/-- **Two orders of the same requests** lead to the same shots in another order. -/
theorem shotsOf_perm (hk : Keyed w.tanks) {own : UInt32 → List (Request K)}
    {xs ys : List (Request K)} (hxs : Interleaves own xs) (hys : Interleaves own ys) :
    (w.shotsOf xs).Perm (w.shotsOf ys) := by
  refine perm_of_filter_eq Shot.owner fun id => ?_
  rw [filter_shotsOf hk, filter_shotsOf hk, hxs id, hys id]

/-! ## 4. What shots do -/

section Releases

omit [Scalar K]

/-- Shots leave everything alone but the tables that they join and the counter. -/
theorem releases_eq (w : World K) (ss : List (Shot K)) :
    ∃ projectiles beams, w.releases ss =
      { w with
        projectiles := projectiles
        beams := beams
        nextObject := idAfter^[ss.length] w.nextObject } := by
  induction ss generalizing w with
  | nil => exact ⟨w.projectiles, w.beams, rfl⟩
  | cons s ss ih => exact ih (w.release s)

/-- The shots with the ids that they take. -/
def numbered (w : World K) (ss : List (Shot K)) : List (UInt32 × Shot K) :=
  (w.nextIds ss.length).zip ss

theorem Spares.release {s : Shot K} {n : Nat} (h : w.Spares (n + 1)) : (w.release s).Spares n := by
  have hids : w.nextIds (n + 1) = w.nextObject :: (w.release s).nextIds n := rfl
  obtain ⟨hnodup, hprojectiles, hbeams⟩ := h
  rw [hids] at hnodup hprojectiles hbeams
  obtain ⟨hnew, hrest⟩ := List.nodup_cons.mp hnodup
  refine ⟨hrest, fun p hp => ?_, fun b hb => ?_⟩
  · cases s with
    | projectile location direction owner =>
      rcases Table.mem_put.mp hp with ⟨hold, _⟩ | rfl
      · exact fun hid => hprojectiles p hold (List.mem_cons_of_mem _ hid)
      · exact hnew
    | beam => exact fun hid => hprojectiles p hp (List.mem_cons_of_mem _ hid)
  · cases s with
    | projectile => exact fun hid => hbeams b hb (List.mem_cons_of_mem _ hid)
    | beam origin direction owner createdAt =>
      rcases Table.mem_put.mp hb with ⟨hold, _⟩ | rfl
      · exact fun hid => hbeams b hold (List.mem_cons_of_mem _ hid)
      · exact hnew

theorem release_of_spares {s : Shot K} {n : Nat} (h : w.Spares (n + 1)) :
    (w.release s).projectiles = w.projectiles ++ (s.projectile? w.nextObject).toList ∧
      (w.release s).beams = w.beams ++ (s.beam? w.nextObject).toList := by
  have hfirst : w.nextObject ∈ w.nextIds (n + 1) := List.mem_cons_self
  have hprojectiles : ∀ p ∈ w.projectiles, p.id ≠ w.nextObject :=
    fun p hp hid => h.projectiles p hp (hid ▸ hfirst)
  have hbeams : ∀ b ∈ w.beams, b.id ≠ w.nextObject :=
    fun b hb hid => h.beams b hb (hid ▸ hfirst)
  cases s with
  | projectile location direction owner =>
    exact ⟨Table.put_of_new hprojectiles, (List.append_nil _).symm⟩
  | beam origin direction owner createdAt =>
    exact ⟨(List.append_nil _).symm, Table.put_of_new hbeams⟩

/-- **Shots with free ids** are added to the others. -/
theorem releases_of_spares {ss : List (Shot K)} (h : w.Spares ss.length) :
    (w.releases ss).projectiles
        = w.projectiles ++ (w.numbered ss).filterMap (fun x => x.2.projectile? x.1) ∧
      (w.releases ss).beams
        = w.beams ++ (w.numbered ss).filterMap fun x => x.2.beam? x.1 := by
  induction ss generalizing w with
  | nil => exact ⟨(List.append_nil _).symm, (List.append_nil _).symm⟩
  | cons s ss ih =>
    obtain ⟨hprojectiles, hbeams⟩ := ih h.release (w := w.release s)
    obtain ⟨hfirst, hfirst'⟩ := release_of_spares (s := s) h
    have hreleases : w.releases (s :: ss) = (w.release s).releases ss := rfl
    have hnumbered : w.numbered (s :: ss) = (w.nextObject, s) :: (w.release s).numbered ss := rfl
    rw [hreleases, hprojectiles, hbeams, hfirst, hfirst', hnumbered]
    cases s with
    | projectile location direction owner =>
      constructor
      · simp [Shot.projectile?]
      · simp [Shot.beam?]
    | beam origin direction owner createdAt =>
      constructor
      · simp [Shot.projectile?]
      · simp [Shot.beam?]

/-- **The same shots in another order** are the same shots up to a renaming of the ids that they
take. -/
theorem exists_renamed_releases {ss ss' : List (Shot K)} (h : w.Spares ss.length)
    (hp : ss.Perm ss') :
    ∃ rename : Equiv.Perm UInt32, (∀ id, id ∉ w.nextIds ss.length → rename id = id) ∧
      ((w.releases ss).projectiles.map (Projectile.rename rename)).Perm
        (w.releases ss').projectiles ∧
      ((w.releases ss).beams.map (Beam.rename rename)).Perm (w.releases ss').beams := by
  obtain ⟨rename, hfix, hperm⟩ := exists_renaming hp h.nodup (List.length_iterate _ _ _)
  obtain ⟨hprojectiles, hbeams⟩ := releases_of_spares h
  obtain ⟨hprojectiles', hbeams'⟩ := releases_of_spares (hp.length_eq ▸ h)
  have hnumbered : ((w.numbered ss).map (Prod.map rename id)).Perm (w.numbered ss') := by
    rw [numbered, numbered, ← hp.length_eq]
    exact hperm
  refine ⟨rename, hfix, ?_, ?_⟩
  · have hold : w.projectiles.map (Projectile.rename rename) = w.projectiles := by
      refine (List.map_congr_left fun p hmem => ?_).trans (List.map_id _)
      rw [Projectile.rename, hfix p.id (h.projectiles p hmem)]
      rfl
    have hnew : ((w.numbered ss).filterMap fun x => x.2.projectile? x.1).map
          (Projectile.rename rename)
        = ((w.numbered ss).map (Prod.map rename id)).filterMap fun x => x.2.projectile? x.1 := by
      rw [List.map_filterMap, List.filterMap_map]
      refine List.filterMap_congr fun x _ => ?_
      cases hs : x.2 <;> simp [Shot.projectile?, Projectile.rename, hs]
    rw [hprojectiles, hprojectiles', List.map_append, hold, hnew]
    exact (hnumbered.filterMap _).append_left _
  · have hold : w.beams.map (Beam.rename rename) = w.beams := by
      refine (List.map_congr_left fun b hmem => ?_).trans (List.map_id _)
      rw [Beam.rename, hfix b.id (h.beams b hmem)]
      rfl
    have hnew : ((w.numbered ss).filterMap fun x => x.2.beam? x.1).map (Beam.rename rename)
        = ((w.numbered ss).map (Prod.map rename id)).filterMap fun x => x.2.beam? x.1 := by
      rw [List.map_filterMap, List.filterMap_map]
      refine List.filterMap_congr fun x _ => ?_
      cases hs : x.2 <;> simp [Shot.beam?, Beam.rename, hs]
    rw [hbeams, hbeams', List.map_append, hold, hnew]
    exact (hnumbered.filterMap _).append_left _

end Releases

/-! ## 5. Any order -/

/-- **Commands in any order.**  Whatever order the commands of several players reach a world in that
a course leads to, if that of each player's own is kept, then in the end

* the tanks, the power-ups, the number of ticks, the next id and everything else but the shots are
  the same;
* each tank is what its own commands alone make of it;
* the projectiles and the beams are the same up to a one-to-one renaming of the ids that the new
  ones took, as long as these ids are all different and free.  This is so if the counter does not
  come round. -/
theorem commands_in_any_order {settings : Settings K} {source : Source} {past : List (Moment K)}
    (h : Course (ofSettings settings source) past w) {own : UInt32 → List (Request K)}
    {xs ys : List (Request K)} (hxs : Interleaves own xs) (hys : Interleaves own ys) :
    (w.serve xs).tanks = (w.serve ys).tanks ∧
    (w.serve xs).powerUps = (w.serve ys).powerUps ∧
    (w.serve xs).ticks = (w.serve ys).ticks ∧
    (w.serve xs).nextObject = (w.serve ys).nextObject ∧
    { w.serve xs with projectiles := [], beams := [] }
      = { w.serve ys with projectiles := [], beams := [] } ∧
    (∀ id, (w.serve xs).tank? id = (w.serve (own id)).tank? id) ∧
    (w.Spares (w.shotsOf xs).length → ∃ rename : Equiv.Perm UInt32,
      (∀ id, id ∉ w.nextIds (w.shotsOf xs).length → rename id = id) ∧
      ((w.serve xs).projectiles.map (Projectile.rename rename)).Perm (w.serve ys).projectiles ∧
      ((w.serve xs).beams.map (Beam.rename rename)).Perm (w.serve ys).beams) ∧
    (settings.maxPowerUps + shotsFired past + (w.shotsOf xs).length + 1 < UInt32.size →
      w.Spares (w.shotsOf xs).length) := by
  have hk : Keyed w.tanks := (h.sound (sound_ofSettings settings source)).keyed
  have hshots := shotsOf_perm hk hxs hys
  have hrest : { w.serve xs with projectiles := [], beams := [] }
      = { w.serve ys with projectiles := [], beams := [] } := by
    have hown : (fun t : Tank K => (Request.own t.id xs).foldl (Tank.answer w.fireCooldown) t)
        = fun t => (Request.own t.id ys).foldl (Tank.answer w.fireCooldown) t := by
      funext t
      rw [hxs t.id, hys t.id]
    obtain ⟨_, _, hleft⟩ := releases_eq w (w.shotsOf xs)
    obtain ⟨_, _, hright⟩ := releases_eq w (w.shotsOf ys)
    rw [serve_eq hk xs, serve_eq hk ys, hown, hleft, hright, hshots.length_eq]
  have htanks := congrArg World.tanks hrest
  have hpowerUps := congrArg World.powerUps hrest
  have hticks := congrArg World.ticks hrest
  have hnext := congrArg World.nextObject hrest
  refine ⟨htanks, hpowerUps, hticks, hnext, hrest, fun id => ?_, fun hspares => ?_,
    fun hroom => ?_⟩
  · have halone : Request.own id (own id) = Request.own id xs := by
      rw [← hxs id, Request.own, Request.own, List.filter_filter]
      simp only [Bool.and_self]
    rw [tank?_serve hk, tank?_serve hk, halone]
  · rw [serve_eq hk xs, serve_eq hk ys]
    exact exists_renamed_releases hspares hshots
  · exact (h.issued (by omega)).spares hroom

/-- A world so small that whoever comes first takes its power-up at once. -/
def stallSettings : Settings Float := { universeSize := 10, fireCooldownMs := 0, maxPowerUps := 1 }

/-- Two tanks come, and the first one picks up a charge for its beam. -/
def lineUp : List (Operation Float) := [.join 1 "ada", .join 2 "bob", .tick 0]

/-- The first player fires a projectile and then a beam, and the second one a projectile before
driving off. -/
def sallies (id : UInt32) : List (Request Float) :=
  if id = 1 then [⟨1, ⟨.hold, .main, Vec.up⟩, 1⟩, ⟨1, ⟨.left, .alt, Vec.up⟩, 2⟩]
  else if id = 2 then [⟨2, ⟨.hold, .main, Vec.down⟩, 1⟩, ⟨2, ⟨.right, .idle, Vec.down⟩, 2⟩]
  else []

/-- The second player's commands after the first one's, and between them: the beam and one of the
projectiles have changed their ids. -/
theorem commands_in_any_order_sallies :
    let w := (ofSettings stallSettings (Source.ofSeed 8)).run lineUp
    let xs := sallies 1 ++ sallies 2
    let ys := (sallies 1).take 1 ++ sallies 2 ++ (sallies 1).drop 1
    Interleaves sallies xs ∧ Interleaves sallies ys ∧ (w.serve xs).tanks = (w.serve ys).tanks ∧
      (w.serve xs).beams.map Beam.id = [3] ∧ (w.serve ys).beams.map Beam.id = [4] ∧
      ∃ rename : Equiv.Perm UInt32,
        ((w.serve xs).projectiles.map (Projectile.rename rename)).Perm (w.serve ys).projectiles ∧
        ((w.serve xs).beams.map (Beam.rename rename)).Perm (w.serve ys).beams := by
  intro w xs ys
  have horders : Interleaves sallies xs ∧ Interleaves sallies ys := by
    constructor
    all_goals
      intro id
      by_cases h1 : id = 1
      · subst h1
        rfl
      · by_cases h2 : id = 2
        · subst h2
          rfl
        · simp [xs, ys, Request.own, sallies, h1, h2, Ne.symm h1, Ne.symm h2]
  have hcourse := course_run (ofSettings stallSettings (Source.ofSeed 8)) lineUp
  obtain ⟨htanks, _, _, _, _, _, hrename, hspares⟩ :=
    commands_in_any_order hcourse horders.1 horders.2
  have hroom : stallSettings.maxPowerUps
      + shotsFired ((ofSettings stallSettings (Source.ofSeed 8)).moments lineUp)
      + (w.shotsOf xs).length + 1 < UInt32.size := by
    have hbefore : shotsFired ((ofSettings stallSettings (Source.ofSeed 8)).moments lineUp) ≤ 3 :=
      List.countP_le_length
    have hnow : (w.shotsOf xs).length ≤ 4 := length_shotsOf_le w xs
    have hone : stallSettings.maxPowerUps = 1 := rfl
    have hsize : UInt32.size = 4294967296 := rfl
    omega
  obtain ⟨rename, _, hprojectiles, hbeams⟩ := hrename (hspares hroom)
  obtain ⟨hid, hid'⟩ : (w.serve xs).beams.map Beam.id = [3] ∧
      (w.serve ys).beams.map Beam.id = [4] := by decide +kernel
  exact ⟨horders.1, horders.2, htanks, hid, hid', rename, hprojectiles, hbeams⟩

end World

end TankArena
