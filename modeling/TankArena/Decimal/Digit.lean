/-!
# Decimal digits

Whole numbers as lists of decimal digits, the most significant one first.  Writing a number and
reading its digits is the identity (`value_digits`).
-/

namespace TankArena

/-- A power of two. -/
def twoTo (n : Nat) : Nat := Nat.pow 2 n

/-- A power of ten. -/
def tenTo (n : Nat) : Nat := Nat.pow 10 n

/-- A decimal digit. -/
abbrev Digit := Fin 10

namespace Digit

/-- The digit zero. -/
def zero : Digit := ⟨0, by decide⟩

/-- The character of a digit. -/
def char (d : Digit) : Char := Char.ofNat (d.val + 48)

/-- The digit that a character stands for; meant for the characters `0` to `9`. -/
def ofChar (c : Char) : Digit := Fin.ofNat 10 (c.toNat - 48)

/-- The number that a list of digits stands for. -/
def value (ds : List Digit) : Nat := ds.foldl (fun n d => 10 * n + d.val) 0

/-- The digits of a number, without leading zeros; zero has one digit. -/
def digits (n : Nat) : List Digit :=
  if n < 10 then [Fin.ofNat 10 n] else digits (n / 10) ++ [Fin.ofNat 10 n]

/-- The leading digits of a text and the rest of it. -/
def span (cs : List Char) : List Digit × List Char :=
  ((cs.takeWhile Char.isDigit).map ofChar, cs.dropWhile Char.isDigit)

/-! ## Laws -/

theorem value_append_singleton (ds : List Digit) (d : Digit) :
    value (ds ++ [d]) = 10 * value ds + d.val := by
  simp [value, List.foldl_append]

/-- **What is written is read back.** -/
theorem value_digits (n : Nat) : value (digits n) = n := by
  induction n using Nat.strongRecOn with
  | _ n ih =>
    rw [digits]
    split
    · rename_i h
      simp [value, Fin.ofNat, Nat.mod_eq_of_lt h]
    · rename_i h
      rw [value_append_singleton, ih (n / 10) (by omega)]
      simp only [Fin.ofNat]
      omega

theorem digits_ne_nil (n : Nat) : digits n ≠ [] := by
  rw [digits]
  split <;> simp

end Digit

end TankArena
