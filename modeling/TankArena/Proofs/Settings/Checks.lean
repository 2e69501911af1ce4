import Mathlib.Data.List.Basic
import TankArena.Proofs.Decimal.Numeral
import TankArena.Settings.Reader

/-!
# What is asked of settings

Settings that can be read are still looked at: the world has to have an edge, a tick has to have a
length, and every wall has to run along an axis.

* Settings have no fault exactly if all of this holds (`fault?_eq_none_iff`).
* Otherwise the fault is the first one, size before tick before walls, walls in their order
  (`fault?_eq_some_iff`).
* The message of a fault tells which of these it is, down to the index of the wall
  (`Error.check_eq_of_message`).
-/

namespace TankArena.Settings

section Faults

variable {K : Type} [Scalar K] {s : Settings K}

/-! ## 1. Walls -/

/-- A wall that runs along an axis: its ends have one coordinate in common. -/
def AlongAxis (wall : Segment K) : Prop :=
  Scalar.same wall.p1.x wall.p2.x = true ∨ Scalar.same wall.p1.y wall.p2.y = true

theorem isSlanted_eq_false_iff {wall : Segment K} : isSlanted wall = false ↔ AlongAxis wall := by
  unfold isSlanted AlongAxis
  cases Scalar.same wall.p1.x wall.p2.x <;> simp

theorem isSlanted_iff {wall : Segment K} : isSlanted wall = true ↔ ¬ AlongAxis wall := by
  rw [← isSlanted_eq_false_iff, Bool.not_eq_false]

theorem slantedFrom?_eq_none_iff {i : Nat} {walls : List (Segment K)} :
    slantedFrom? i walls = none ↔ ∀ wall ∈ walls, AlongAxis wall := by
  induction walls generalizing i with
  | nil => simp [slantedFrom?]
  | cons wall walls ih =>
    rw [slantedFrom?, List.forall_mem_cons, ← ih (i := i + 1), ← isSlanted_eq_false_iff]
    cases isSlanted wall <;> simp

/-- **The wall that is named is the first** that runs along no axis. -/
theorem slantedFrom?_eq_some_iff {i : Nat} {walls : List (Segment K)} {fault : Fault K} :
    slantedFrom? i walls = some fault ↔
      ∃ before wall after, walls = before ++ wall :: after ∧ (∀ w ∈ before, AlongAxis w) ∧
        ¬ AlongAxis wall ∧ fault = .slanted (i + before.length) wall := by
  induction walls generalizing i with
  | nil => simp [slantedFrom?]
  | cons first walls ih =>
    rw [slantedFrom?]
    by_cases hfirst : AlongAxis first
    · rw [isSlanted_eq_false_iff.mpr hfirst, if_neg Bool.false_ne_true, ih]
      constructor
      · rintro ⟨before, wall, after, rfl, hbefore, hwall, rfl⟩
        refine ⟨first :: before, wall, after, rfl, List.forall_mem_cons.mpr ⟨hfirst, hbefore⟩,
          hwall, ?_⟩
        rw [List.length_cons, Nat.add_right_comm, Nat.add_assoc]
      · rintro ⟨before, wall, after, hwalls, hbefore, hwall, rfl⟩
        cases before with
        | nil =>
          obtain ⟨rfl, rfl⟩ := List.cons.inj hwalls
          exact absurd hfirst hwall
        | cons w before =>
          obtain ⟨rfl, rfl⟩ := List.cons.inj hwalls
          refine ⟨before, wall, after, rfl, (List.forall_mem_cons.mp hbefore).2, hwall, ?_⟩
          rw [List.length_cons, Nat.add_right_comm, Nat.add_assoc]
    · rw [isSlanted_iff.mpr hfirst, if_pos rfl]
      constructor
      · intro h
        cases h
        exact ⟨[], first, walls, rfl, by simp, hfirst, rfl⟩
      · rintro ⟨before, wall, after, hwalls, hbefore, -, rfl⟩
        cases before with
        | nil =>
          obtain ⟨rfl, rfl⟩ := List.cons.inj hwalls
          rfl
        | cons w before =>
          obtain ⟨rfl, rfl⟩ := List.cons.inj hwalls
          exact absurd (hbefore first List.mem_cons_self) hfirst

/-! ## 2. Faults -/

/-- Settings that a world can be built from. -/
structure Accepted (s : Settings K) : Prop where
  size : s.universeSize ≠ 0
  tick : s.msPerFrame ≠ 0
  walls : ∀ wall ∈ s.walls, AlongAxis wall

/-- The first fault of settings: of the size, else of the tick, else of the walls in their order. -/
inductive FirstFault (s : Settings K) : Fault K → Prop
  | noSize (h : s.universeSize = 0) : FirstFault s .noSize
  | noTick (size : s.universeSize ≠ 0) (h : s.msPerFrame = 0) : FirstFault s .noTick
  | slanted {before after : List (Segment K)} {wall : Segment K} (size : s.universeSize ≠ 0)
      (tick : s.msPerFrame ≠ 0) (walls : s.walls = before ++ wall :: after)
      (straight : ∀ w ∈ before, AlongAxis w) (h : ¬ AlongAxis wall) :
      FirstFault s (.slanted before.length wall)

theorem fault?_eq_none_iff : s.fault? = none ↔ s.Accepted := by
  unfold fault?
  constructor
  · intro h
    split_ifs at h with hsize htick
    exact ⟨hsize, htick, slantedFrom?_eq_none_iff.mp h⟩
  · rintro ⟨hsize, htick, hwalls⟩
    rw [if_neg hsize, if_neg htick]
    exact slantedFrom?_eq_none_iff.mpr hwalls

/-- **The fault that is named is the first.** -/
theorem fault?_eq_some_iff {fault : Fault K} : s.fault? = some fault ↔ s.FirstFault fault := by
  unfold fault?
  constructor
  · intro h
    split_ifs at h with hsize htick
    · cases h
      exact .noSize hsize
    · cases h
      exact .noTick hsize htick
    · obtain ⟨before, wall, after, hwalls, hbefore, hwall, rfl⟩ := slantedFrom?_eq_some_iff.mp h
      rw [Nat.zero_add]
      exact .slanted hsize htick hwalls hbefore hwall
  · intro h
    cases h with
    | noSize h => rw [if_pos h]
    | noTick size h => rw [if_neg size, if_pos h]
    | @slanted before after wall size tick walls straight h =>
      rw [if_neg size, if_neg tick]
      exact slantedFrom?_eq_some_iff.mpr
        ⟨before, wall, after, walls, straight, h, by rw [Nat.zero_add]⟩

end Faults

/-! ## 3. Messages -/

/-- What is asked of settings, in the order in which it is looked at. -/
inductive Check where
  | size
  | tick
  | wall (index : Nat)
  deriving DecidableEq

/-- What a fault is a fault of. -/
def Fault.check {K : Type} : Fault K → Check
  | .noSize => .size
  | .noTick => .tick
  | .slanted index _ => .wall index

/-- **The number in a message can be read off it**, as it ends before the first mark that is no
digit. -/
theorem eq_of_toString_append {m n : Nat} {c : Char} (hc : c.isDigit = false)
    {rest rest' : List Char}
    (h : (toString m).toList ++ c :: rest = (toString n).toList ++ c :: rest') : m = n := by
  have hahead : ∀ more, Digit.NoneAhead (c :: more) := by
    rintro more c' ⟨⟩
    exact hc
  have hdigits : ∀ k : Nat, (toString k).toList = (Digit.digits k).map Digit.char :=
    fun k => (Digit.map_char_digits k).symm
  have hspan := congrArg Digit.span h
  rw [hdigits, hdigits, Digit.span_append _ (hahead rest), Digit.span_append _ (hahead rest')]
    at hspan
  rw [← Digit.value_digits m, (Prod.mk.inj hspan).1, Digit.value_digits]

/-- The message of a slanted wall starts with its index. -/
theorem exists_message_slanted (index : Nat) (wall : Segment Float) :
    ∃ more, (Fault.slanted index wall).message.toList
      = "wall ".toList ++ ((toString index).toList ++ ' ' :: more) := by
  refine ⟨("is not axis-aligned: " ++ pointText wall.p1 ++ " - " ++ pointText wall.p2).toList, ?_⟩
  have hblank : " is not axis-aligned: ".toList = ' ' :: "is not axis-aligned: ".toList := rfl
  simp [Fault.message, hblank]

/-- The first letter of a message tells whether it is about the size, the tick or a wall. -/
theorem head?_message (fault : Fault Float) :
    fault.message.toList.head?
      = some (match fault with | .noSize => 'u' | .noTick => 'm' | .slanted _ _ => 'w') := by
  cases fault with
  | noSize => rfl
  | noTick => rfl
  | slanted index wall =>
    obtain ⟨more, hmore⟩ := exists_message_slanted index wall
    rw [hmore]
    rfl

/-- **A message tells what is wrong**: faults of different things have different messages. -/
theorem Fault.check_eq_of_message {fault fault' : Fault Float}
    (h : fault.message = fault'.message) : fault.check = fault'.check := by
  have hfirst : fault.message.toList.head? = fault'.message.toList.head? := by rw [h]
  rw [head?_message, head?_message] at hfirst
  cases fault with
  | noSize =>
    cases fault' with
    | noSize => rfl
    | _ => cases hfirst
  | noTick =>
    cases fault' with
    | noTick => rfl
    | _ => cases hfirst
  | slanted index wall =>
    cases fault' with
    | slanted index' wall' =>
      obtain ⟨more, hmore⟩ := exists_message_slanted index wall
      obtain ⟨more', hmore'⟩ := exists_message_slanted index' wall'
      have htext := congrArg String.toList h
      rw [hmore, hmore', List.append_cancel_left_eq] at htext
      exact congrArg Check.wall (eq_of_toString_append rfl htext)
    | _ => cases hfirst

end TankArena.Settings
