import Mathlib.Algebra.BigOperators.Group.List.Basic
import Mathlib.Algebra.Ring.Nat
import Mathlib.Data.List.Forall2
import Mathlib.Data.List.Nodup
import Mathlib.Logic.Relation
import TankArena.Table

/-!
# Tables as finite maps

A table is a list, but the arena reads it as a map from ids to things.  This file says what that
reading needs and what each operation does to it.

* A table is `Keyed` when no two of its things have the same id.  Every operation keeps it so.
* On a keyed table `find? id` is the thing with that id (`find?_eq_some_iff`), and each operation
  has one equation for `find?`.  Later files use these equations and never open a table.
* Two tables correspond thing by thing when they are related by `List.Forall₂`.  A relation that
  keeps ids is seen in what is found under an id (`find?_of_forall₂`).  `Evolve R` is the case
  in which each thing went through changes of kind `R`.

Nothing here depends on the order of a table beyond the correspondence.
-/

namespace TankArena.Table

open Identified (ident)
open Relation (ReflTransGen)

variable {α : Type} [Identified α]

/-! ## 1. Keyed tables -/

/-- No two things of the table have the same id. -/
def Keyed (xs : List α) : Prop := (xs.map ident).Nodup

theorem keyed_nil : Keyed ([] : List α) := List.nodup_nil

/-- A table with the same ids in the same order is keyed too. -/
theorem Keyed.of_ids_eq {xs ys : List α} (h : Keyed xs) (hids : ys.map ident = xs.map ident) :
    Keyed ys := by
  unfold Keyed
  rw [hids]
  exact h

/-- The first thing of a keyed table shares its id with none of the others. -/
theorem keyed_cons {x : α} {xs : List α} :
    Keyed (x :: xs) ↔ (∀ y ∈ xs, ident y ≠ ident x) ∧ Keyed xs := by
  unfold Keyed
  rw [List.map_cons, List.nodup_cons, List.mem_map, not_exists]
  simp only [not_and]

theorem Keyed.map {xs : List α} (h : Keyed xs) {f : α → α} (hf : ∀ x, ident (f x) = ident x) :
    Keyed (xs.map f) := by
  refine h.of_ids_eq ?_
  rw [List.map_map]
  exact List.map_congr_left fun x _ => hf x

theorem Keyed.modify {xs : List α} (h : Keyed xs) (id : UInt32) {f : α → α}
    (hf : ∀ x, ident (f x) = ident x) : Keyed (modify id f xs) := by
  refine h.map fun x => ?_
  split
  · exact hf x
  · rfl

theorem Keyed.filter {xs : List α} (h : Keyed xs) (p : α → Bool) : Keyed (xs.filter p) :=
  List.Nodup.sublist (List.filter_sublist.map ident) h

theorem Keyed.put {xs : List α} (h : Keyed xs) (x : α) : Keyed (put x xs) := by
  unfold Keyed Table.put
  rw [List.map_append, List.nodup_append]
  refine ⟨h.filter _, List.nodup_singleton _, ?_⟩
  intro a ha b hb
  obtain ⟨y, hy, rfl⟩ := List.mem_map.mp ha
  have hne : ident y ≠ ident x := by simpa using (List.mem_filter.mp hy).2
  rw [List.map_singleton, List.mem_singleton] at hb
  rw [hb]
  exact hne

/-- On a keyed table two things with one id are one thing. -/
theorem Keyed.eq_of_ident_eq {xs : List α} (h : Keyed xs) {x y : α} (hx : x ∈ xs) (hy : y ∈ xs)
    (hid : ident x = ident y) : x = y :=
  List.inj_on_of_nodup_map h hx hy hid

/-! ## 2. What is found under an id -/

/-- Whose id comes first is found first. -/
theorem find?_cons_self {id : UInt32} {x : α} (h : ident x = id) (xs : List α) :
    find? id (x :: xs) = some x :=
  List.find?_cons_of_pos (by simp [h])

theorem find?_cons_other {id : UInt32} {x : α} (h : ident x ≠ id) (xs : List α) :
    find? id (x :: xs) = find? id xs :=
  List.find?_cons_of_neg (by simp [h])

theorem mem_of_find? {id : UInt32} {xs : List α} {x : α} (h : find? id xs = some x) : x ∈ xs :=
  List.mem_of_find?_eq_some h

theorem ident_of_find? {id : UInt32} {xs : List α} {x : α} (h : find? id xs = some x) :
    ident x = id := by
  simpa using List.find?_some h

/-- **A keyed table is a map.**  What is found under an id is exactly the thing with that id. -/
theorem find?_eq_some_iff {xs : List α} (h : Keyed xs) {id : UInt32} {x : α} :
    find? id xs = some x ↔ x ∈ xs ∧ ident x = id := by
  constructor
  · intro hx
    exact ⟨mem_of_find? hx, ident_of_find? hx⟩
  · rintro ⟨hx, rfl⟩
    have hsome : (find? (ident x) xs).isSome := by
      unfold find?
      rw [List.find?_isSome]
      exact ⟨x, hx, by simp⟩
    obtain ⟨y, hy⟩ := Option.isSome_iff_exists.mp hsome
    rw [hy, h.eq_of_ident_eq (mem_of_find? hy) hx (ident_of_find? hy)]

theorem has_eq_isSome (id : UInt32) (xs : List α) : has id xs = (find? id xs).isSome := by
  rw [Bool.eq_iff_iff]
  unfold has find?
  rw [List.find?_isSome, List.any_eq_true]

theorem has_iff_mem_ids {id : UInt32} {xs : List α} : has id xs = true ↔ id ∈ xs.map ident := by
  unfold has
  rw [List.any_eq_true, List.mem_map]
  simp only [beq_iff_eq]

theorem find?_map {f : α → α} (hf : ∀ x, ident (f x) = ident x) (id : UInt32) (xs : List α) :
    find? id (xs.map f) = (find? id xs).map f := by
  unfold find?
  rw [List.find?_map]
  simp only [Function.comp_def, hf]

theorem find?_modify {f : α → α} (hf : ∀ x, ident (f x) = ident x) (id key : UInt32)
    (xs : List α) :
    find? id (modify key f xs) = (find? id xs).map fun x => if id = key then f x else x := by
  unfold modify
  rw [find?_map (fun x => by split <;> simp [hf])]
  cases hx : find? id xs with
  | none => rfl
  | some x => rw [Option.map_some, Option.map_some, ident_of_find? hx]

theorem find?_put (id : UInt32) (x : α) (xs : List α) :
    find? id (put x xs) = if id = ident x then some x else find? id xs := by
  unfold find? put
  rw [List.find?_append, List.find?_filter]
  split
  · rename_i hid
    have hnone : (xs.find? fun y => decide ((ident y != ident x) = true ∧ (ident y == id) = true))
        = none := by
      rw [List.find?_eq_none]
      intro y _
      simp [hid]
    rw [hnone, Option.none_or]
    simp [hid]
  · rename_i hid
    have hsame : ∀ y : α, decide ((ident y != ident x) = true ∧ (ident y == id) = true)
        = (ident y == id) := by
      intro y
      by_cases hy : ident y = id
      · simp [hy, hid]
      · simp [hy]
    simp only [hsame]
    simp [Ne.symm hid]

theorem mem_put {x y : α} {xs : List α} :
    y ∈ put x xs ↔ (y ∈ xs ∧ ident y ≠ ident x) ∨ y = x := by
  unfold put
  rw [List.mem_append, List.mem_filter, List.mem_singleton, bne_iff_ne]

/-- A thing with a new id is added to the others. -/
theorem put_of_new {x : α} {xs : List α} (h : ∀ y ∈ xs, ident y ≠ ident x) :
    put x xs = xs ++ [x] := by
  unfold put
  rw [List.filter_eq_self.mpr fun y hy => bne_iff_ne.mpr (h y hy)]

theorem find?_filter {xs : List α} (h : Keyed xs) (id : UInt32) (p : α → Bool) :
    find? id (xs.filter p) = (find? id xs).filter p := by
  ext x
  rw [Option.filter_eq_some_iff, find?_eq_some_iff (h.filter p), find?_eq_some_iff h,
    List.mem_filter]
  tauto

/-- On a keyed table at most one thing has an id, and it is the one that is found. -/
theorem filter_ident_eq {xs : List α} (h : Keyed xs) (id : UInt32) :
    (xs.filter fun x => ident x == id) = (find? id xs).toList := by
  induction xs with
  | nil => rfl
  | cons x xs ih =>
    obtain ⟨hnew, hrest⟩ := keyed_cons.mp h
    rw [List.filter_cons]
    by_cases hid : ident x = id
    · have hothers : (xs.filter fun y => ident y == id) = [] := by
        rw [List.filter_eq_nil_iff]
        intro y hy hyid
        exact hnew y hy ((beq_iff_eq.mp hyid).trans hid.symm)
      rw [if_pos (beq_iff_eq.mpr hid), hothers, find?_cons_self hid]
      rfl
    · rw [if_neg (fun hx => hid (beq_iff_eq.mp hx)), ih hrest, find?_cons_other hid]

/-- What tells of the thing with an id tells of it once, if it is there. -/
theorem filterMap_map_eq_toList {ρ σ : Type} {xs : List α} (h : Keyed xs) (id : UInt32)
    {f : α → ρ} {g : ρ → Option σ} {k : α → σ}
    (hg : ∀ x, g (f x) = if ident x = id then some (k x) else none) :
    (xs.map f).filterMap g = ((find? id xs).map k).toList := by
  have hall : (xs.map f).filterMap g = (xs.filter fun x => ident x == id).map k := by
    rw [List.filterMap_map, ← List.filterMap_eq_map, List.filterMap_filter]
    refine List.filterMap_congr fun x _ => ?_
    simp [hg]
  rw [hall, filter_ident_eq h]
  cases find? id xs <;> rfl

/-- What tells of none of some things tells nothing. -/
theorem filterMap_map_eq_nil {β ρ σ : Type} {f : β → ρ} {g : ρ → Option σ}
    (h : ∀ x, g (f x) = none) (xs : List β) : (xs.map f).filterMap g = [] := by
  rw [List.filterMap_map, List.filterMap_eq_nil_iff]
  exact fun x _ => h x

/-- On a keyed table a change under the id of a thing reaches that thing only. -/
theorem modify_between {before after : List α} {x : α} (h : Keyed (before ++ x :: after))
    (f : α → α) : modify (ident x) f (before ++ x :: after) = before ++ f x :: after := by
  have hne : ∀ y ∈ before ++ after, ident y ≠ ident x := by
    unfold Keyed at h
    rw [List.map_append, List.map_cons, List.nodup_middle, ← List.map_append] at h
    intro y hy hid
    exact (List.nodup_cons.mp h).1 (hid ▸ List.mem_map_of_mem hy)
  have hsame : ∀ ys : List α, (∀ y ∈ ys, ident y ≠ ident x) →
      ys.map (fun y => if ident y = ident x then f y else y) = ys := fun ys hys =>
    (List.map_congr_left fun y hy => if_neg (hys y hy)).trans (List.map_id' ys)
  unfold modify
  rw [List.map_append, List.map_cons, if_pos rfl,
    hsame before fun y hy => hne y (List.mem_append_left _ hy),
    hsame after fun y hy => hne y (List.mem_append_right _ hy)]

/-- On a keyed table only what is found under an id matters to a change under it. -/
theorem modify_congr {xs : List α} (h : Keyed xs) {id : UInt32} {f g : α → α}
    (hfg : ∀ x, find? id xs = some x → f x = g x) : modify id f xs = modify id g xs := by
  refine List.map_congr_left fun x hx => ?_
  by_cases hid : ident x = id
  · rw [if_pos hid, if_pos hid, hfg x ((find?_eq_some_iff h).mpr ⟨hx, hid⟩)]
  · rw [if_neg hid, if_neg hid]

theorem modify_eq_self {xs : List α} (h : Keyed xs) {id : UInt32} {f : α → α}
    (hf : ∀ x, find? id xs = some x → f x = x) : modify id f xs = xs := by
  have hsame : modify id (fun x => x) xs = xs := by simp [modify]
  rw [modify_congr h (g := fun x => x) hf, hsame]

/-- Two changes under one id, one after the other. -/
theorem modify_modify {id : UInt32} {f g : α → α} (hf : ∀ x, ident (f x) = ident x) (xs : List α) :
    modify id g (modify id f xs) = modify id (fun x => g (f x)) xs := by
  unfold modify
  rw [List.map_map]
  refine List.map_congr_left fun x _ => ?_
  by_cases hid : ident x = id
  · simp [hid, hf]
  · simp [hid]

/-- A change under two ids, in either order. -/
theorem modify_comm {f : α → α} (hf : ∀ x, ident (f x) = ident x) (id key : UInt32)
    (xs : List α) : modify key f (modify id f xs) = modify id f (modify key f xs) := by
  unfold modify
  rw [List.map_map, List.map_map]
  refine List.map_congr_left fun x _ => ?_
  rw [Function.comp_apply, Function.comp_apply]
  by_cases hid : ident x = id
  · by_cases hkey : ident x = key
    · simp only [hf, if_pos hid, if_pos hkey]
    · simp only [hf, if_pos hid, if_neg hkey]
  · by_cases hkey : ident x = key
    · simp only [hf, if_neg hid, if_pos hkey]
    · simp only [if_neg hid, if_neg hkey]

/-! ## 3. Correspondence of lists -/

section Correspondence

variable {β γ : Type}

theorem exists_after_of_forall₂ {R : β → γ → Prop} {xs : List β} {ys : List γ}
    (h : List.Forall₂ R xs ys) {x : β} (hx : x ∈ xs) : ∃ y ∈ ys, R x y := by
  induction h with
  | nil => exact absurd hx List.not_mem_nil
  | @cons z y _ _ hzy _ ih =>
    rcases List.mem_cons.mp hx with rfl | hx
    · exact ⟨y, List.mem_cons_self, hzy⟩
    · obtain ⟨y', hy', hxy⟩ := ih hx
      exact ⟨y', List.mem_cons_of_mem _ hy', hxy⟩

theorem exists_before_of_forall₂ {R : β → γ → Prop} {xs : List β} {ys : List γ}
    (h : List.Forall₂ R xs ys) {y : γ} (hy : y ∈ ys) : ∃ x ∈ xs, R x y :=
  exists_after_of_forall₂ (R := fun y x => R x y) h.flip hy

/-- What the relation says of two views holds of the views of all. -/
theorem map_eq_of_forall₂ {δ : Type} {R : β → γ → Prop} {f : β → δ} {g : γ → δ} {xs : List β}
    {ys : List γ} (hR : ∀ x ∈ xs, ∀ y, R x y → g y = f x) (h : List.Forall₂ R xs ys) :
    ys.map g = xs.map f := by
  induction h with
  | nil => rfl
  | @cons x y _ _ hxy _ ih =>
    rw [List.map_cons, List.map_cons, hR x List.mem_cons_self y hxy,
      ih fun z hz => hR z (List.mem_cons_of_mem _ hz)]

end Correspondence

/-! ## 4. Correspondence of tables -/

/-- Tables that correspond by a relation which keeps ids have the same ids. -/
theorem ids_eq_of_forall₂ {R : α → α → Prop} (hR : ∀ x y, R x y → ident y = ident x)
    {xs ys : List α} (h : List.Forall₂ R xs ys) : ys.map ident = xs.map ident := by
  induction h with
  | nil => rfl
  | cons hxy _ ih => rw [List.map_cons, List.map_cons, hR _ _ hxy, ih]

/-- **Correspondence is seen under every id.**  What the relation says of a view of the things it
says of the view of what is found under an id. -/
theorem find?_of_forall₂ {γ : Type} {R : α → α → Prop} {view : α → γ} (change : UInt32 → γ → γ)
    (hR : ∀ x y, R x y → ident y = ident x)
    (hview : ∀ x y, R x y → view y = change (ident x) (view x))
    {xs ys : List α} (h : List.Forall₂ R xs ys) (id : UInt32) :
    (find? id ys).map view = ((find? id xs).map view).map (change id) := by
  induction h with
  | nil => rfl
  | @cons x y xs ys hxy _ ih =>
    have hsame := hR x y hxy
    by_cases hid : ident x = id
    · rw [find?_cons_self hid, find?_cons_self (hsame.trans hid), Option.map_some, Option.map_some,
        Option.map_some, hview x y hxy, hid]
    · rw [find?_cons_other hid, find?_cons_other (hsame ▸ hid), ih]

/-- Tables that correspond by a relation which keeps ids have things under the same ids. -/
theorem has_of_forall₂ {R : α → α → Prop} (hR : ∀ x y, R x y → ident y = ident x)
    {xs ys : List α} (h : List.Forall₂ R xs ys) (id : UInt32) : has id ys = has id xs := by
  rw [Bool.eq_iff_iff, has_iff_mem_ids, has_iff_mem_ids, ids_eq_of_forall₂ hR h]

/-- On a keyed table, things with one id correspond. -/
theorem of_forall₂ {R : α → α → Prop} {xs ys : List α} (hk : Keyed ys)
    (hR : ∀ x y, R x y → ident y = ident x) (h : List.Forall₂ R xs ys) {x y : α} (hx : x ∈ xs)
    (hy : y ∈ ys) (hid : ident y = ident x) : R x y := by
  obtain ⟨z, hz, hxz⟩ := exists_after_of_forall₂ h hx
  have hyz : y = z := hk.eq_of_ident_eq hy hz (hid.trans (hR x z hxz).symm)
  rw [hyz]
  exact hxz

/-- What corresponds to a thing that is found is found under the same id. -/
theorem exists_found_after {R : α → α → Prop} (hR : ∀ x y, R x y → ident y = ident x)
    {xs ys : List α} (h : List.Forall₂ R xs ys) {id : UInt32} {x : α}
    (hx : find? id xs = some x) : ∃ y, find? id ys = some y ∧ R x y := by
  induction h with
  | nil => cases hx
  | @cons z y xs ys hzy _ ih =>
    have hsame := hR z y hzy
    by_cases hid : ident z = id
    · rw [find?_cons_self hid] at hx
      obtain rfl := Option.some.inj hx
      exact ⟨y, find?_cons_self (hsame.trans hid) ys, hzy⟩
    · rw [find?_cons_other hid] at hx
      rw [find?_cons_other (hsame ▸ hid)]
      exact ih hx

theorem exists_found_before {R : α → α → Prop} (hR : ∀ x y, R x y → ident y = ident x)
    {xs ys : List α} (h : List.Forall₂ R xs ys) {id : UInt32} {y : α}
    (hy : find? id ys = some y) : ∃ x, find? id xs = some x ∧ R x y :=
  exists_found_after (R := fun y x => R x y) (fun y x hxy => (hR x y hxy).symm) h.flip hy

/-! ## 5. Lists whose things change, and visits -/

section Lists

variable {β σ : Type}

/-- Two lists that correspond one by one, each thing after any number of changes. -/
abbrev Evolve (R : β → β → Prop) : List β → List β → Prop := List.Forall₂ (ReflTransGen R)

theorem Evolve.refl (R : β → β → Prop) (xs : List β) : Evolve R xs xs :=
  List.forall₂_refl xs

/-- Correspondences one after the other. -/
theorem forall₂_trans {R S T : β → β → Prop} (hT : ∀ x y z, R x y → S y z → T x z)
    {xs ys zs : List β} (h : List.Forall₂ R xs ys) (h' : List.Forall₂ S ys zs) :
    List.Forall₂ T xs zs := by
  induction h generalizing zs with
  | nil =>
    cases h' with
    | nil => exact List.Forall₂.nil
  | cons hxy _ ih =>
    cases h' with
    | cons hyz hrest => exact List.Forall₂.cons (hT _ _ _ hxy hyz) (ih hrest)

theorem Evolve.trans {R : β → β → Prop} {xs ys zs : List β} (h : Evolve R xs ys)
    (h' : Evolve R ys zs) : Evolve R xs zs :=
  forall₂_trans (fun _ _ _ hxy hyz => hxy.trans hyz) h h'

/-- What carries over from each thing to the thing that corresponds to it carries over from all of
them to all. -/
theorem forall_of_forall₂ {R : β → β → Prop} {P Q : β → Prop}
    (hstep : ∀ x y, R x y → P x → Q y) {xs ys : List β} (h : List.Forall₂ R xs ys)
    (hP : ∀ x ∈ xs, P x) : ∀ y ∈ ys, Q y := by
  induction h with
  | nil => exact fun y hy => absurd hy List.not_mem_nil
  | @cons x y xs ys hxy _ ih =>
    intro z hz
    rcases List.mem_cons.mp hz with rfl | hz
    · exact hstep x z hxy (hP x List.mem_cons_self)
    · exact ih (fun v hv => hP v (List.mem_cons_of_mem x hv)) z hz

theorem forall₂_map_self {R : β → β → Prop} {f : β → β} (h : ∀ x, R x (f x)) (xs : List β) :
    List.Forall₂ R xs (xs.map f) := by
  rw [List.forall₂_map_right_iff, List.forall₂_same]
  exact fun x _ => h x

/-- Everything in the list changes once or not at all. -/
theorem evolve_map {R : β → β → Prop} {f : β → β} {xs : List β}
    (h : ∀ x ∈ xs, R x (f x) ∨ f x = x) : Evolve R xs (xs.map f) := by
  unfold Evolve
  rw [List.forall₂_map_right_iff, List.forall₂_same]
  intro x hx
  rcases h x hx with hchange | hsame
  · exact ReflTransGen.single hchange
  · rw [hsame]

/-- What a change keeps, any number of changes keep. -/
theorem eq_of_reflTransGen {γ : Type} {R : β → β → Prop} {g : β → γ}
    (hg : ∀ x y, R x y → g y = g x) {x y : β} (h : ReflTransGen R x y) : g y = g x := by
  induction h with
  | refl => rfl
  | tail _ hstep ih => rw [hg _ _ hstep, ih]

theorem visit_cons (f : σ → β → β × σ) (s : σ) (x : β) (xs : List β) :
    visit f s (x :: xs)
      = ((f s x).1 :: (visit f (f s x).2 xs).1, (visit f (f s x).2 xs).2) := rfl

variable {f : σ → β → β × σ}

/-- What holds of every single visit relates the things before and after. -/
theorem visit_forall₂ {R : β → β → Prop} (h : ∀ s x, R x (f s x).1) (s : σ) (xs : List β) :
    List.Forall₂ R xs (visit f s xs).1 := by
  induction xs generalizing s with
  | nil => exact List.Forall₂.nil
  | cons x xs ih => exact List.Forall₂.cons (h s x) (ih (f s x).2)

/-- What every single visit keeps of the state, all visits keep. -/
theorem visit_invariant {I : σ → Prop} (h : ∀ s x, I s → I (f s x).2) {s : σ} (hs : I s)
    (xs : List β) : I (visit f s xs).2 := by
  induction xs generalizing s with
  | nil => exact hs
  | cons x xs ih => exact ih (h s x hs)

end Lists

/-! ## 6. Counting -/

theorem sum_toNat_eq_countP {β : Type} (p : β → Bool) (xs : List β) :
    (xs.map fun x => (p x).toNat).sum = xs.countP p := by
  induction xs with
  | nil => rfl
  | cons x xs ih =>
    rw [List.map_cons, List.sum_cons, ih, List.countP_cons, Nat.add_comm]
    cases p x <;> rfl

/-- A change under an id changes a sum over the table by what it changes of the thing that is
found. -/
theorem sum_modify {xs : List α} (h : Keyed xs) {id : UInt32} {x : α} (hx : find? id xs = some x)
    (f : α → α) (g : α → Nat) :
    ((modify id f xs).map g).sum + g x = (xs.map g).sum + g (f x) := by
  obtain ⟨before, after, rfl⟩ := List.append_of_mem (mem_of_find? hx)
  rw [← ident_of_find? hx, modify_between h f]
  simp only [List.map_append, List.map_cons, List.sum_append, List.sum_cons]
  omega

/-- **Counting by ids.**  The things of a keyed table share out the ids of a list: each thing gets
those that are its own, and those of no thing are left over. -/
theorem sum_count {xs : List α} (h : Keyed xs) (ids : List UInt32) :
    (xs.map fun x => ids.count (ident x)).sum = ids.countP fun id => has id xs := by
  induction ids with
  | nil =>
    simp only [List.count_nil, List.countP_nil]
    exact List.sum_map_zero
  | cons id ids ih =>
    have hone : (xs.map fun x => (ident x == id).toNat).sum = (has id xs).toNat := by
      rw [sum_toNat_eq_countP, List.countP_eq_length_filter, filter_ident_eq h, has_eq_isSome]
      cases find? id xs <;> rfl
    have hcount : ∀ x : α, (id :: ids).count (ident x)
        = ids.count (ident x) + (ident x == id).toNat := by
      intro x
      rw [List.count_cons, BEq.comm]
      cases ident x == id <;> rfl
    simp only [hcount]
    rw [List.sum_map_add, ih, hone, List.countP_cons]
    cases has id xs <;> rfl

end TankArena.Table
