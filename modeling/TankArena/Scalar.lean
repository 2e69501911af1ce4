/-!
# The numbers that coordinates are made of

Positions, directions and distances are kept over one scalar type.  The arena runs over
`Float`; everything that only adds, multiplies and compares is stated over `Scalar K`, so the
same definitions can be read over an ordered field.

The class asks for operations only and assumes no law: `Float` has none to offer.  Three points
follow from that and are used all over the library.

* Equality of numbers is order in both directions (`same`): a NaN equals nothing, itself
  included, and the two zeros are equal.
* `lesser` and `greater` ignore an operand that is not comparable with itself.
* Expressions are evaluated as they are written; no definition reassociates a sum.
-/

namespace TankArena

/-- What a coordinate can do: arithmetic, an order that can be tested, a square root, numerals
and the question whether it is finite. -/
class Scalar (K : Type) extends
    Add K, Sub K, Mul K, Div K, Neg K, LT K, LE K, OfScientific K, NatCast K where
  decidableLT : DecidableLT K
  decidableLE : DecidableLE K
  /-- The square root. -/
  sqrt : K → K
  /-- Whether the number is finite. -/
  isFinite : K → Bool

attribute [reducible, instance] Scalar.decidableLT Scalar.decidableLE

/-- The arena runs over double-precision numbers. -/
instance : Scalar Float where
  natCast := Float.ofNat
  decidableLT := inferInstance
  decidableLE := inferInstance
  sqrt := Float.sqrt
  isFinite := Float.isFinite

namespace Scalar

variable {K : Type} [Scalar K]

/-- Two numbers are the same when neither exceeds the other. -/
def same (a b : K) : Bool := decide (a ≤ b) && decide (b ≤ a)

/-- The smaller of two numbers; one that is not comparable with itself gives way to the other. -/
def lesser (a b : K) : K := if a ≤ b then a else if b ≤ b then b else a

/-- The larger of two numbers; one that is not comparable with itself gives way to the other. -/
def greater (a b : K) : K := if b ≤ a then a else if b ≤ b then b else a

end Scalar

end TankArena
