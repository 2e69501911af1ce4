/-!
# Time

An instant is the number of microseconds after a fixed beginning.  The time between two instants
is never negative: towards an earlier instant it is zero.

A clock may count in finer units.  Instants matter only by the time between them, and that is only
compared with whole numbers of milliseconds; so the unit enters through `ofMillis` alone, and
nothing that is claimed of an arena depends on how many units a millisecond has.
-/

namespace TankArena

/-- Microseconds after the beginning. -/
abbrev Time := Nat

namespace Time

/-- The time that has passed since an instant. -/
def elapsed (now since : Time) : Nat := now - since

/-- A number of milliseconds. -/
def ofMillis (ms : Nat) : Nat := 1000 * ms

/-- **Only differences count.**  Moving both instants by the same amount changes no elapsed time. -/
theorem elapsed_add (now since d : Time) : elapsed (now + d) (since + d) = elapsed now since := by
  simp [elapsed, Nat.add_sub_add_right]

end Time

end TankArena
