import TankArena.Decimal.Digit

/-!
# The shortest decimal that reads as a given double

A finite double other than zero is `mantissa · 2 ^ exponent`.  The decimals that read back as it
are those between the midpoints to its two neighbours; the midpoints themselves belong to it
exactly when its mantissa is even.  `shortest` looks for the coarsest power of ten that has a
multiple in that interval and takes the nearest such multiple.

The search tries the grids `10 ^ top, 10 ^ (top - 1), …`, where `top` is the magnitude of the
number.  On each grid it is enough to look at the two multiples around the number itself.
Everything is counted in whole numbers.
-/

namespace TankArena

/-! ## 1. Doubles as whole numbers times powers of two -/

/-- A number `mantissa · 2 ^ exponent`. -/
structure Dyadic where
  mantissa : Nat
  exponent : Int
  deriving Repr, DecidableEq

/-- The magnitude of the finite double with these bits. -/
def Dyadic.ofBits (bits : UInt64) : Dyadic :=
  let fraction : Nat := bits.toNat % twoTo 52
  let field : Nat := bits.toNat / twoTo 52 % twoTo 11
  if field = 0 then ⟨fraction, -1074⟩ else ⟨twoTo 52 + fraction, (field : Int) - 1075⟩

/-! ## 2. The numbers that read as a double -/

/-- A number and the ends of the interval of numbers that read as it, all over the denominator
`unit`; `closed` tells whether the ends belong to the interval. -/
structure Rounding where
  low : Nat
  mid : Nat
  high : Nat
  unit : Nat
  closed : Bool
  deriving Repr

/-- The interval of a double.  Below a power of two the neighbours lie twice as close, so the
lower end is half as far away; the least double of full precision is not such a point. -/
def Dyadic.rounding (v : Dyadic) : Rounding :=
  let up := twoTo (v.exponent - 2).toNat
  let below := if v.mantissa = twoTo 52 ∧ v.exponent ≠ -1074 then 1 else 2
  { low := (4 * v.mantissa - below) * up
    mid := 4 * v.mantissa * up
    high := (4 * v.mantissa + 2) * up
    unit := twoTo (2 - v.exponent).toNat
    closed := v.mantissa % 2 = 0 }

/-! ## 3. Grids of decimals -/

/-- A number `coefficient · 10 ^ power`. -/
structure Decimal where
  coefficient : Nat
  power : Int
  deriving Repr, DecidableEq

/-- Which of two equally near decimals is taken. -/
inductive Tie where
  /-- The one with the even coefficient. -/
  | even
  /-- The larger one. -/
  | up
  deriving Repr, DecidableEq

namespace Rounding

/-- Whether `10 ^ e` is at most the number. -/
def reaches (r : Rounding) (e : Int) : Bool :=
  decide (tenTo e.toNat * r.unit ≤ r.mid * tenTo (-e).toNat)

/-- The greatest `e` with `10 ^ e` at most the number.  The binary magnitude gives it up to one. -/
def magnitude (r : Rounding) : Int :=
  let guess := ((Nat.log2 r.mid : Int) - (Nat.log2 r.unit : Int)) * 1233 / 4096
  if r.reaches (guess + 1) then guess + 1
  else if r.reaches guess then guess
  else guess - 1

/-- The multiple of `10 ^ power` in the interval that is nearest to the number, if there is one. -/
def onGrid? (tie : Tie) (r : Rounding) (power : Int) : Option Decimal :=
  let step := tenTo power.toNat * r.unit
  let scale := tenTo (-power).toNat
  let c := r.mid * scale / step
  let floorIn := decide (r.low * scale < c * step) || (r.closed && r.low * scale == c * step)
  let ceilIn := decide ((c + 1) * step < r.high * scale) ||
    (r.closed && (c + 1) * step == r.high * scale)
  let nearer :=
    if 2 * (r.mid * scale) < (2 * c + 1) * step then c
    else if (2 * c + 1) * step < 2 * (r.mid * scale) then c + 1
    else match tie with
      | .even => if c % 2 = 0 then c else c + 1
      | .up => c + 1
  if floorIn && ceilIn then some ⟨nearer, power⟩
  else if floorIn then some ⟨c, power⟩
  else if ceilIn then some ⟨c + 1, power⟩
  else none

/-- The decimal with the fewest digits in the interval.  Seventeen digits always suffice for a
double; without a hit the number itself, cut off after them, stands in. -/
def shortest (tie : Tie) (r : Rounding) : Decimal :=
  let top := r.magnitude
  match (List.range 17).findSome? fun (n : Nat) => r.onGrid? tie (top - (n : Int)) with
  | some d => d
  | none =>
    let power := top - 16
    ⟨r.mid * tenTo (-power).toNat / (tenTo power.toNat * r.unit), power⟩

end Rounding

/-- The decimal with the fewest digits that reads as the number, the nearest of those. -/
def Dyadic.shortest (tie : Tie) (v : Dyadic) : Decimal := v.rounding.shortest tie

/-- The significant digits of a decimal, without trailing zeros, and the place of the point: the
number is `0.d₁d₂… · 10 ^ point`. -/
def Decimal.significant (d : Decimal) : List Digit × Int :=
  let ds := Digit.digits d.coefficient
  ((ds.reverse.dropWhile (· == Digit.zero)).reverse, (ds.length : Int) + d.power)

end TankArena
