import TankArena.Json.Fields
import TankArena.Proofs.Decimal.Whole
import TankArena.Proofs.Json.Text

/-!
# Reading the fields of a written object

An object that `ofMembers` makes is read by the names of its members.

* With every name once, the fields come back in the order in which they are asked for
  (`allFields?_ofMembers`).
* Without a member for one of the names there are no fields (`allFields?_eq_none`).  This is how a
  reader that tries several kinds of objects tells them apart.

The plain values read back as well: texts, truth values, and words of a size that holds them.
-/

namespace TankArena.Json

/-! ## 1. Plain values -/

@[simp] theorem string?_ofString (s : String) : (ofString s).string? = some s :=
  Quoted.text?_ofString s

theorem natural?_ofNat (n : Nat) : (Numeral.ofNat n).natural? = some n := by
  unfold Numeral.natural? Numeral.ofNat
  simp [Digit.value_digits]

theorem natBelow?_ofNat {bound n : Nat} (h : n < bound) : (ofNat n).natBelow? bound = some n := by
  rw [ofNat, natBelow?, natural?_ofNat, Option.filter_some, if_pos (decide_eq_true h)]

@[simp] theorem uint32?_ofNat (n : UInt32) : (ofNat n.toNat).uint32? = some n := by
  unfold uint32?
  rw [natBelow?_ofNat n.toNat_lt, Option.map_some, UInt32.ofNat_toNat]

@[simp] theorem uint8?_ofNat (n : UInt8) : (ofNat n.toNat).uint8? = some n := by
  unfold uint8?
  rw [natBelow?_ofNat n.toNat_lt, Option.map_some, UInt8.ofNat_toNat]

/-- A text names the choice whose name it is. -/
theorem oneOf?_ofString {α : Type} (name : α → String) (choices : List α) (s : String) :
    (ofString s).oneOf? name choices = choices.find? fun a => some s == some (name a) := by
  rw [ofString, oneOf?, Quoted.text?_ofString]

/-! ## 2. Members by name -/

/-- The members of an object, with their names quoted. -/
def quoted (ms : List (String × Json)) : List (Quoted × Json) :=
  ms.map fun m => (Quoted.ofString m.1, m.2)

theorem ofMembers_eq (ms : List (String × Json)) : ofMembers ms = .object (quoted ms) := rfl

/-- The members with a name are those that were written with it. -/
theorem filter_quoted (ms : List (String × Json)) (name : String) :
    ((quoted ms).filter fun m => m.1.text? == some name)
      = quoted (ms.filter fun m => m.1 == name) := by
  unfold quoted
  rw [List.filter_map]
  congr 1
  simp [Function.comp_def, Quoted.text?_ofString]

theorem only?_absent {ms : List (String × Json)} {name : String}
    (h : name ∉ ms.map Prod.fst) : only? (quoted ms) name = some none := by
  have hnone : (ms.filter fun m => m.1 == name) = [] := by
    rw [List.filter_eq_nil_iff]
    intro m hm heq
    exact h (beq_iff_eq.mp heq ▸ List.mem_map_of_mem hm)
  unfold only?
  rw [filter_quoted, hnone]
  rfl

theorem only?_of_mem {ms : List (String × Json)} (hnodup : (ms.map Prod.fst).Nodup)
    {m : String × Json} (hm : m ∈ ms) : only? (quoted ms) m.1 = some (some m.2) := by
  have hone : (ms.filter fun m' => m'.1 == m.1) = [m] := by
    induction ms with
    | nil => cases hm
    | cons first ms ih =>
      rw [List.map_cons, List.nodup_cons] at hnodup
      rw [List.filter_cons]
      rcases List.mem_cons.mp hm with rfl | hm
      · have hnone : (ms.filter fun m' => m'.1 == m.1) = [] := by
          rw [List.filter_eq_nil_iff]
          intro m' hm' heq
          exact hnodup.1 (beq_iff_eq.mp heq ▸ List.mem_map_of_mem hm')
        rw [if_pos (beq_self_eq_true _), hnone]
      · have hne : ¬ (first.1 == m.1) = true := by
          intro heq
          exact hnodup.1 (beq_iff_eq.mp heq ▸ List.mem_map_of_mem hm)
        rw [if_neg hne, ih hnodup.2 hm]
  unfold only?
  rw [filter_quoted, hone]
  rfl

/-! ## 3. Fields -/

theorem fields?_ofMembers (names : List String) (ms : List (String × Json)) :
    (ofMembers ms).fields? names = names.mapM (only? (quoted ms)) := by
  have hall : (quoted ms).all (fun m => m.1.text?.isSome) = true := by
    rw [List.all_eq_true]
    intro m hm
    obtain ⟨m', -, rfl⟩ := List.mem_map.mp hm
    dsimp only
    rw [Quoted.text?_ofString]
    rfl
  rw [ofMembers_eq, fields?, if_pos hall]

/-- **An object that is written with some fields has them**, in their order. -/
theorem allFields?_ofMembers {names : List String} {ms : List (String × Json)}
    (hnames : ms.map Prod.fst = names) (hnodup : names.Nodup) :
    (ofMembers ms).allFields? names = some (ms.map Prod.snd) := by
  subst hnames
  have hall : ∀ l : List (String × Json), l ⊆ ms →
      (l.map Prod.fst).mapM (only? (quoted ms)) = some (l.map fun m => some m.2) := by
    intro l
    induction l with
    | nil => exact fun _ => rfl
    | cons m l ih =>
      intro hsub
      rw [List.map_cons, List.mapM_cons, only?_of_mem hnodup (hsub List.mem_cons_self),
        ih (List.subset_of_cons_subset hsub)]
      rfl
  unfold allFields?
  rw [fields?_ofMembers, hall ms (List.Subset.refl ms), Option.bind_some, List.mapM_map]
  exact List.mapM_pure

/-- **An object without a member for a field has not all of them.** -/
theorem allFields?_eq_none {names : List String} {ms : List (String × Json)} {name : String}
    (hname : name ∈ names) (hms : name ∉ ms.map Prod.fst) :
    (ofMembers ms).allFields? names = none := by
  have habsent := only?_absent hms
  unfold allFields?
  rw [fields?_ofMembers]
  induction names with
  | nil => cases hname
  | cons first names ih =>
    rw [List.mapM_cons]
    cases hfirst : only? (quoted ms) first with
    | none => rfl
    | some value =>
      cases hmore : names.mapM (only? (quoted ms)) with
      | none => rfl
      | some values =>
        change (value :: values).mapM id = none
        rw [List.mapM_cons]
        rcases List.mem_cons.mp hname with rfl | hname
        · rw [habsent] at hfirst
          cases hfirst
          rfl
        · have hnone := ih hname
          rw [hmore, Option.bind_some] at hnone
          cases value with
          | none => rfl
          | some v =>
            rw [hnone]
            rfl

/-! ## 4. Written objects -/

theorem legible_ofMembers {ms : List (String × Json)} (h : ∀ m ∈ ms, m.2.Legible) :
    (ofMembers ms).Legible := by
  refine .object ?_ ?_
  · intro m hm
    obtain ⟨m', -, rfl⟩ := List.mem_map.mp hm
    exact Quoted.legible_ofString m'.1
  · intro m hm
    obtain ⟨m', hm', rfl⟩ := List.mem_map.mp hm
    exact h m' hm'

theorem legible_ofString (s : String) : (ofString s).Legible := .string (Quoted.legible_ofString s)

theorem legible_ofNat (n : Nat) : (ofNat n).Legible := .number (Numeral.proper_ofNat n)

/-- An object can be built if its members can be, one level further in. -/
theorem buildable_ofMembers {ms : List (String × Json)} {depth : Nat}
    (h : ∀ m ∈ ms, buildable depth m.2 = true) : buildable (depth + 1) (ofMembers ms) = true := by
  rw [ofMembers_eq, buildable, List.all_eq_true]
  intro m hm
  obtain ⟨m', hm', rfl⟩ := List.mem_map.mp hm
  dsimp only
  rw [Quoted.text?_ofString, h m' hm']
  rfl

theorem buildable_ofString (depth : Nat) (s : String) : buildable depth (ofString s) = true := by
  rw [ofString, buildable, Quoted.text?_ofString]
  rfl

theorem buildable_ofNat (depth : Nat) {n : Nat} (hn : n < UInt64.size) :
    buildable depth (ofNat n) = true := by
  rw [ofNat, buildable]
  exact Numeral.isSome_float?_ofNat hn

theorem buildable_uint32 (depth : Nat) (n : UInt32) : buildable depth (ofNat n.toNat) = true :=
  buildable_ofNat depth (Nat.lt_trans n.toNat_lt (by decide))

theorem buildable_uint8 (depth : Nat) (n : UInt8) : buildable depth (ofNat n.toNat) = true :=
  buildable_ofNat depth (Nat.lt_trans n.toNat_lt (by decide))

end TankArena.Json
