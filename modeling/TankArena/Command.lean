import TankArena.Vec

/-!
# What a player asks for

One command is the whole intent of a player: where to drive, whether to fire, where to aim.  A
later command replaces an earlier one.
-/

namespace TankArena

/-- The driving that a player asks for. -/
inductive Drive where
  /-- Stand still. -/
  | hold
  | up
  | down
  | left
  | right
  deriving Repr, DecidableEq

namespace Drive

/-- All kinds of driving. -/
def all : List Drive := [hold, up, down, left, right]

/-- The direction of travel; none when the tank is to stand still. -/
def unit? {K : Type} [Scalar K] : Drive → Option (Vec K)
  | hold => none
  | up => some Vec.up
  | down => some Vec.down
  | left => some Vec.left
  | right => some Vec.right

theorem mem_all (d : Drive) : d ∈ all := by cases d <;> decide

end Drive

/-- The weapon that a player asks for. -/
inductive Trigger where
  /-- No shot. -/
  | idle
  /-- A projectile. -/
  | main
  /-- A beam. -/
  | alt
  deriving Repr, DecidableEq

namespace Trigger

/-- All kinds of fire. -/
def all : List Trigger := [idle, main, alt]

theorem mem_all (t : Trigger) : t ∈ all := by cases t <;> decide

end Trigger

/-- The intent of a player. -/
structure Command (K : Type) where
  drive : Drive
  trigger : Trigger
  /-- The direction of the turret, of any length. -/
  aim : Vec K
  deriving Repr

end TankArena
