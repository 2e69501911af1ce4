import TankArena.Scalar

/-!
# Vectors of the plane

World coordinates: `x` grows to the right and `y` grows downwards.  The sums are written
component by component, and `dot` adds the product of the `x` components first.
-/

namespace TankArena

/-- A point or a displacement of the plane; positive `y` points down. -/
structure Vec (K : Type) where
  x : K
  y : K
  deriving Repr

namespace Vec

variable {K : Type} [Scalar K]

/-! ## 1. Fixed vectors -/

/-- The zero vector. -/
def zero : Vec K := ⟨0.0, 0.0⟩

/-- One step towards the top of the world. -/
def up : Vec K := ⟨0.0, -1.0⟩

/-- One step towards the bottom of the world. -/
def down : Vec K := ⟨0.0, 1.0⟩

/-- One step towards the left edge of the world. -/
def left : Vec K := ⟨-1.0, 0.0⟩

/-- One step towards the right edge of the world. -/
def right : Vec K := ⟨1.0, 0.0⟩

/-! ## 2. Arithmetic -/

instance : Add (Vec K) := ⟨fun a b => ⟨a.x + b.x, a.y + b.y⟩⟩

instance : Sub (Vec K) := ⟨fun a b => ⟨a.x - b.x, a.y - b.y⟩⟩

/-- Both components times one factor. -/
def scale (v : Vec K) (factor : K) : Vec K := ⟨v.x * factor, v.y * factor⟩

/-- The inner product. -/
def dot (a b : Vec K) : K := a.x * b.x + a.y * b.y

/-- The Euclidean length. -/
def length (v : Vec K) : K := Scalar.sqrt (v.dot v)

/-- Two vectors are the same when their components are the same numbers. -/
def same (a b : Vec K) : Bool := Scalar.same a.x b.x && Scalar.same a.y b.y

/-- The vector of length one in the direction of `v`; there is none when the length of `v` is
zero or not finite. -/
def normalized (v : Vec K) : Option (Vec K) :=
  let len := v.length
  if Scalar.same len 0.0 || !Scalar.isFinite len then none
  else some ⟨v.x / len, v.y / len⟩

/-- **The direction of a vector** is the vector divided by its length, if that is a finite number
other than zero. -/
theorem normalized_eq_some_iff {v u : Vec K} :
    v.normalized = some u ↔ Scalar.same (Scalar.sqrt (v.x * v.x + v.y * v.y)) 0.0 = false ∧
      Scalar.isFinite (Scalar.sqrt (v.x * v.x + v.y * v.y)) = true ∧
      u = ⟨v.x / Scalar.sqrt (v.x * v.x + v.y * v.y),
        v.y / Scalar.sqrt (v.x * v.x + v.y * v.y)⟩ := by
  have hlength : v.length = Scalar.sqrt (v.x * v.x + v.y * v.y) := rfl
  unfold normalized
  rw [hlength]
  generalize Scalar.sqrt (v.x * v.x + v.y * v.y) = len
  cases hzero : Scalar.same len 0.0 <;> cases hfinite : Scalar.isFinite len <;>
    simp [hzero, hfinite, eq_comm]

/-! ## 3. Components of the operations -/

@[simp] theorem add_x (a b : Vec K) : (a + b).x = a.x + b.x := rfl

@[simp] theorem add_y (a b : Vec K) : (a + b).y = a.y + b.y := rfl

@[simp] theorem sub_x (a b : Vec K) : (a - b).x = a.x - b.x := rfl

@[simp] theorem sub_y (a b : Vec K) : (a - b).y = a.y - b.y := rfl

@[simp] theorem scale_x (v : Vec K) (s : K) : (v.scale s).x = v.x * s := rfl

@[simp] theorem scale_y (v : Vec K) (s : K) : (v.scale s).y = v.y * s := rfl

end Vec

end TankArena
