/-!
# Tables of things with ids

A table is a list of things with ids, in the order in which they are visited.  Nothing here
depends on that order beyond it: a look-up finds the first thing with an id, a change reaches
every thing with an id, and putting a thing in takes out what had its id before.
-/

namespace TankArena

/-- Things that have an id. -/
class Identified (α : Type) where
  /-- The id of a thing. -/
  ident : α → UInt32

namespace Table

open Identified (ident)

variable {α : Type} [Identified α]

/-! ## 1. Operations -/

/-- Whether a thing has the id. -/
def has (id : UInt32) (xs : List α) : Bool := xs.any fun x => ident x == id

/-- The thing with an id. -/
def find? (id : UInt32) (xs : List α) : Option α := xs.find? fun x => ident x == id

/-- A change of the thing with an id. -/
def modify (id : UInt32) (f : α → α) (xs : List α) : List α :=
  xs.map fun x => if ident x = id then f x else x

/-- A table with one more thing; what had its id before is gone. -/
def put (x : α) (xs : List α) : List α := (xs.filter fun y => ident y != ident x) ++ [x]

/-! ## 2. Visits that carry a state -/

/-- Visits the things of a list in order, carrying a state along. -/
def visit {β σ : Type} (f : σ → β → β × σ) : σ → List β → List β × σ
  | s, [] => ([], s)
  | s, x :: xs =>
    let (y, s) := f s x
    let (ys, s) := visit f s xs
    (y :: ys, s)

/-! ## 3. Laws -/

theorem mem_put_self (x : α) (xs : List α) : x ∈ put x xs := by
  simp [put]

end Table

end TankArena
